import Calculator.Session

/-! What the program is asked for, and what comes of it.

With expressions each is answered in turn; without, a session is held on the standard
input. A crash ends the program where it is, with what has been written by then. -/
namespace Calculator.CommandLine

/-- What is asked for: answers to the expressions, or a session if there are none. -/
structure Invocation where
  options : Options
  expressions : List String
deriving DecidableEq, Repr

structure Outcome where
  exitCode : Nat
  output : String
  diagnostics : String
deriving DecidableEq, Repr

/-- The exit code after answering expressions of which so many failed. -/
def exitCode (failures : Nat) : Nat :=
  if failures = 0 then 0 else 1

/-- The exit code after a crash. -/
def crashExitCode : Nat := 1

namespace Invocation

/-- The outcome if there is room for all trees. A session never fails; its lines may end in any
of the usual ways. -/
def run (invocation : Invocation) (input : String) : Outcome :=
  if invocation.expressions = [] then
    let t := invocation.options.session (String.ofList (Text.unifyLineEnds input.toList))
    ⟨0, t.output, t.diagnostics⟩
  else
    let t := Transcript.join (invocation.expressions.map invocation.options.reply)
    ⟨exitCode t.failures, t.output, t.diagnostics⟩

/-- Answers the expressions or holds the session. -/
def ending (room : Room) (invocation : Invocation) (input : String) : Ending :=
  if invocation.expressions = [] then
    invocation.options.sessionWithin room (String.ofList (Text.unifyLineEnds input.toList))
  else invocation.options.answerAll room invocation.expressions

def runWithin (room : Room) (invocation : Invocation) (input : String) : Outcome :=
  let ending := invocation.ending room input
  let code :=
    match ending.crash with
    | some _ => crashExitCode
    | none => if invocation.expressions = [] then 0 else exitCode ending.written.failures
  ⟨code, ending.written.output, ending.written.diagnostics⟩

end Invocation
end Calculator.CommandLine
