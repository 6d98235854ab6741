import Calculator.Calculation
import Calculator.Text.Lines

/-! Sessions: one answer a line, until the input ends.

A turn writes the prompt and then what its line calls for: nothing if the line is
blank, the answer, or a complaint on the other stream. No turn depends on those
before it, so a session that goes on to the end is its turns put together, and one
more prompt that meets the end of the input (`Options.session`). A tree that there
is no room for ends the session where it is met (`Options.hold`). -/
namespace Calculator

structure Options where
  /-- Whether to answer with the tree instead of the value. -/
  showTree : Bool := false
  /-- Whether to log on the diagnostic stream. -/
  debug : Bool := false
  prompt : String := "> "
deriving DecidableEq, Repr

/-- What has been written, and how many texts failed. -/
structure Transcript where
  output : String := ""
  diagnostics : String := ""
  failures : Nat := 0
deriving DecidableEq, Repr

namespace Transcript

instance : Append Transcript where
  append a b := ⟨a.output ++ b.output, a.diagnostics ++ b.diagnostics, a.failures + b.failures⟩

def ofOutput (text : String) : Transcript := { output := text }

/-- One after the other. -/
def join (transcripts : List Transcript) : Transcript :=
  transcripts.foldl (· ++ ·) {}

@[simp] theorem output_append (a b : Transcript) : (a ++ b).output = a.output ++ b.output := rfl

@[simp] theorem diagnostics_append (a b : Transcript) :
    (a ++ b).diagnostics = a.diagnostics ++ b.diagnostics := rfl

@[simp] theorem failures_append (a b : Transcript) :
    (a ++ b).failures = a.failures + b.failures := rfl

end Transcript

/-- What has been written when it is over, and the crash if that was the end. -/
structure Ending where
  written : Transcript := {}
  crash : Option Crash := none
deriving DecidableEq, Repr

namespace Ending

/-- The same after something else was written. -/
def after (ending : Ending) (before : Transcript) : Ending :=
  { ending with written := before ++ ending.written }

/-- Goes on from what has been written, unless there was a crash. -/
def andThen (ending : Ending) (next : Transcript → Ending) : Ending :=
  match ending.crash with
  | none => next ending.written
  | some _ => ending

/-- Takes texts one after the other, until one crashes. -/
def inTurn (take : String → Ending) : List String → Transcript → Ending
  | [], written => { written }
  | text :: rest, written => ((take text).after written).andThen (inTurn take rest)

end Ending

namespace Options

/-! ### Texts -/

/-- What is written for the text of an expression, if there is room for its tree. -/
def reply (options : Options) (text : String) : Transcript :=
  let log := if options.debug then logEntry text else ""
  match answer options.showTree text with
  | .ok result => { output := result ++ "\n", diagnostics := log }
  | .error e =>
    { diagnostics := log ++ "Could not parse expression! " ++ e.message ++ "\n", failures := 1 }

/-- What is written for a line. -/
def respond (options : Options) (line : String) : Transcript :=
  if line.toList.all Text.isBlank then {} else options.reply line

def turn (options : Options) (line : String) : Transcript :=
  .ofOutput options.prompt ++ options.respond line

def closing (options : Options) : Transcript :=
  .ofOutput (options.prompt ++ "\n")

/-- The whole session on an input, if there is room for all its trees. -/
def session (options : Options) (input : String) : Transcript :=
  .join ((Text.lines input.toList).map fun line => options.turn (String.ofList line)) ++
    options.closing

/-! ### Crashes -/

/-- Answers a text. A text that has no tree is complained of; what goes wrong with a tree is not
caught. The log comes before the answer. -/
def attempt (room : Room) (options : Options) (text : String) : Ending :=
  match Expr.ofText text with
  | .error e =>
    let log := if options.debug then logEntry text else ""
    { written :=
        { diagnostics := log ++ "Could not parse expression! " ++ e.message ++ "\n", failures := 1 } }
  | .ok e =>
    match e.loggedWithin room options.debug text with
    | .error crash => { crash := some crash }
    | .ok log =>
      match e.shownWithin room options.showTree with
      | .ok result => { written := { output := result ++ "\n", diagnostics := log } }
      | .error crash => { written := { diagnostics := log }, crash := some crash }

/-- Holds a session on what is still unread, after what has been written. -/
def hold (room : Room) (options : Options) (unread : List Char) (written : Transcript) : Ending :=
  match unread with
  | [] => { written := written ++ .ofOutput options.prompt ++ .ofOutput "\n" }
  | c :: cs =>
    let line := (Text.readLine (c :: cs)).1
    let prompted := written ++ .ofOutput options.prompt
    if line.all Text.isBlank then options.hold room (Text.readLine (c :: cs)).2 prompted
    else
      ((options.attempt room (String.ofList line)).after prompted).andThen fun written =>
        options.hold room (Text.readLine (c :: cs)).2 written
termination_by unread.length
decreasing_by all_goals exact Text.length_readLine_lt c cs

def sessionWithin (room : Room) (options : Options) (input : String) : Ending :=
  options.hold room input.toList {}

/-- Answers texts one after the other. -/
def answerAll (room : Room) (options : Options) (texts : List String) : Ending :=
  .inTurn (options.attempt room) texts {}

end Options
end Calculator
