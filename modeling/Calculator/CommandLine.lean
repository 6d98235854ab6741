import Calculator.Invocation

/-! The command line.

Arguments are options and expressions in any order. An option given wins over the
environment variable that stands in for it, and an empty variable counts as none. What
is proved of runs is proved of invocations, whatever reads the command line. -/
namespace Calculator.CommandLine

/-- Why a command line is not run. -/
inductive Refusal where
  | unknownOption (argument : String)
  | missingPrompt
  /-- The variable that switches the debug log says neither yes nor no. -/
  | notASwitch (value : String)
  /-- Nothing is wrong with it, but help was asked for. -/
  | help
deriving DecidableEq, Repr

/-- The exit code of a command line that something is wrong with. -/
def usageExitCode : Nat := 2

namespace Refusal

def message : Refusal → String
  | .unknownOption argument => "no such option: " ++ argument
  | .missingPrompt => "option --prompt requires a text"
  | .notASwitch value => "neither yes nor no: " ++ value
  | .help => "options: --ast --prompt TEXT --debug --help; all else are expressions"

def exitCode : Refusal → Nat
  | .help => 0
  | _ => usageExitCode

end Refusal

/-- The environment variables that are read. -/
structure Environment where
  prompt : Option String := none
  debug : Option String := none
deriving DecidableEq, Repr

/-! ### Arguments -/

structure Arguments where
  showTree : Bool := false
  debug : Bool := false
  help : Bool := false
  prompt : Option String := none
  expressions : List String := []
deriving DecidableEq, Repr

/-- Whether an argument has the form of an option; a dash alone has not. -/
def isOption (argument : String) : Bool :=
  match argument.toList with
  | '-' :: _ :: _ => true
  | _ => false

/-- The prompt in an argument such as `--prompt=text`. -/
def attachedPrompt? (argument : String) : Option String :=
  let name := "--prompt=".toList
  if name.isPrefixOf argument.toList then some (String.ofList (argument.toList.drop name.length))
  else none

namespace Arguments

/-- A prompt given further left; the last one given is the one that counts. -/
def withPrompt (a : Arguments) (prompt : String) : Arguments :=
  { a with prompt := a.prompt.or (some prompt) }

def withExpression (a : Arguments) (expression : String) : Arguments :=
  { a with expressions := expression :: a.expressions }

/-- Reads arguments; after `--` all are expressions. -/
def read : List String → Except Refusal Arguments
  | [] => .ok {}
  | "--" :: rest => .ok { expressions := rest }
  | "--ast" :: rest => do return { ← read rest with showTree := true }
  | "--debug" :: rest => do return { ← read rest with debug := true }
  | "--help" :: rest => do return { ← read rest with help := true }
  | ["--prompt"] => .error .missingPrompt
  | "--prompt" :: prompt :: rest => do return (← read rest).withPrompt prompt
  | argument :: rest =>
    match attachedPrompt? argument with
    | some prompt => do return (← read rest).withPrompt prompt
    | none =>
      if isOption argument then .error (.unknownOption argument)
      else do return (← read rest).withExpression argument

end Arguments

/-! ### The environment -/

/-- A word for yes or for no, in either case of letters; blanks around it do not count, and
blanks alone mean no. -/
def switch? (value : String) : Option Bool :=
  let word := String.ofList ((Text.trimBlanks value.toList).map Char.toLower)
  if word ∈ ["1", "true", "t", "yes", "y", "on"] then some true
  else if word ∈ ["", "0", "false", "f", "no", "n", "off"] then some false
  else none

/-- A variable that is set to something. -/
def given? (value : Option String) : Option String :=
  value.filter (· ≠ "")

/-- Whether the debug log is on. The variable is not looked at if the option is given. -/
def debugOf (environment : Environment) (a : Arguments) : Except Refusal Bool :=
  if a.debug then .ok true
  else match given? environment.debug with
    | none => .ok false
    | some value =>
      match switch? value with
      | some debug => .ok debug
      | none => .error (.notASwitch value)

def Invocation.ofArguments (environment : Environment) (arguments : List String) :
    Except Refusal Invocation := do
  let a ← Arguments.read arguments
  if a.help then throw .help
  let debug ← debugOf environment a
  let prompt := (a.prompt.or (given? environment.prompt)).getD "> "
  return { options := { showTree := a.showTree, debug, prompt }, expressions := a.expressions }

/-! ### Running -/

def run (environment : Environment) (arguments : List String) (input : String) :
    Except Refusal Outcome := do
  let invocation ← Invocation.ofArguments environment arguments
  return invocation.runWithin {} input

end Calculator.CommandLine
