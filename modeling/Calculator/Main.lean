import Calculator.CommandLine

/-! The program: arguments, environment and streams around `CommandLine`. -/
namespace Calculator.CommandLine

def write (t : Transcript) : IO Unit := do
  let output ← IO.getStdout
  let diagnostics ← IO.getStderr
  output.putStr t.output
  output.flush
  diagnostics.putStr t.diagnostics
  diagnostics.flush

/-- Answers a text and writes what there is to write. -/
def attempt (options : Options) (text : String) : IO Ending := do
  let ending := options.attempt {} text
  write ending.written
  return ending

/-- Holds a session with someone who waits for each answer. The lines given have been read and
are still to be answered. -/
partial def converse (options : Options) (given : List (List Char)) : IO (Option Crash) := do
  write (.ofOutput options.prompt)
  let lines ←
    if given.isEmpty then do
      let text ← (← IO.getStdin).getLine
      pure (Text.lines (Text.unifyLineEnds text.toList))
    else pure given
  match lines with
  | [] => do
    write (.ofOutput "\n")
    return none
  | line :: rest =>
    if line.all Text.isBlank then converse options rest
    else do
      let ending ← attempt options (String.ofList line)
      match ending.crash with
      | some crash => return some crash
      | none => converse options rest

/-- Answers expressions and counts those that fail. -/
def answerEach (options : Options) : List String → Nat → IO (Except Crash Nat)
  | [], failures => return .ok failures
  | expression :: rest, failures => do
    let ending ← attempt options expression
    match ending.crash with
    | some crash => return .error crash
    | none => answerEach options rest (failures + ending.written.failures)

def crashed (crash : Crash) : IO UInt32 := do
  (← IO.getStderr).putStr (crash.message ++ "\n")
  return crashExitCode.toUInt32

def program (arguments : List String) : IO UInt32 := do
  let environment : Environment :=
    { prompt := ← IO.getEnv "CALC_PROMPT", debug := ← IO.getEnv "DEBUG" }
  match Invocation.ofArguments environment arguments with
  | .error e => do
    let stream ← if e = .help then IO.getStdout else IO.getStderr
    stream.putStr (e.message ++ "\n")
    return e.exitCode.toUInt32
  | .ok invocation =>
    if invocation.expressions = [] then do
      match ← converse invocation.options [] with
      | none => return 0
      | some crash => crashed crash
    else do
      match ← answerEach invocation.options invocation.expressions 0 with
      | .ok failures => return (exitCode failures).toUInt32
      | .error crash => crashed crash

end Calculator.CommandLine

def main (arguments : List String) : IO UInt32 :=
  Calculator.CommandLine.program arguments
