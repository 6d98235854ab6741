import Calculator.Expr.Describe
import Calculator.Expr.Evaluate
import Calculator.Expr.Print
import Calculator.Token.Scan
import Calculator.Yard

/-! From the text of an expression to its answer. -/
namespace Calculator

/-- Why a text has no answer. -/
inductive Failure where
  | lex (e : LexError)
  | malformed (e : Malformed)
  | evaluation (e : EvalError)
deriving DecidableEq, Repr

def Failure.message : Failure → String
  | .lex e => e.message
  | .malformed e => e.message
  | .evaluation e => e.message

/-- The tree of a text. All of the text is cut into tokens before any is taken in. -/
def Expr.ofText (text : String) : Except Failure Expr := do
  let tokens ← (tokenize text).mapError .lex
  (ofTokens tokens).mapError .malformed

def calculateWith (arithmetic : Arithmetic) (text : String) : Except Failure Float := do
  let e ← Expr.ofText text
  (e.evaluateWith arithmetic).mapError .evaluation

def calculate (text : String) : Except Failure Float :=
  calculateWith .ieee text

/-- What is shown for a text: its tree, printed back, or its value. -/
def answer (showTree : Bool) (text : String) : Except Failure String := do
  let e ← Expr.ofText text
  if showTree then return e.print
  let value ← e.evaluate.mapError .evaluation
  return Numeral.canonical value

/-- What the debug log says of a text and the description of its tree. -/
def readEntry (text description : String) : String :=
  "DEBUG repl: " ++ Text.quoted text ++ " parsed as " ++ description ++ "\n"

/-- What the debug log says of a text: what it was read as, or how many tokens were refused. -/
def logEntry (text : String) : String :=
  match tokenize text with
  | .error _ => ""
  | .ok tokens =>
    match Expr.ofTokens tokens with
    | .ok e => readEntry text e.describe
    | .error e =>
      "DEBUG parser: rejected " ++ toString tokens.length ++ " tokens: " ++ e.message ++ "\n"

/-! ### Room

Reading and evaluating a tree take no more calls under way for a deep tree than for a flat one.
To print or to describe it takes one for each of its levels, and only so many are allowed. -/

/-- How many levels of a tree there is room for, where a text is answered. Of a thousand calls
that may be under way a few are others; a description takes two a level. -/
structure Room where
  printing : Nat := 985
  describing : Nat := 490
deriving DecidableEq, Repr

/-- What goes wrong with a tree, once it has been read. Nothing makes up for it: it is the end of
the program. -/
inductive Crash where
  | evaluation (e : EvalError)
  /-- There was no room for one more call. -/
  | tooDeep
deriving DecidableEq, Repr

def Crash.message : Crash → String
  | .evaluation e => e.message
  | .tooDeep => "maximum recursion depth exceeded"

namespace Expr

/-- What is shown for a tree: the tree, printed back, or its value. -/
def shownWithin (room : Room) (showTree : Bool) (e : Expr) : Except Crash String :=
  if showTree then
    match e.printWithin room.printing with
    | some text => .ok text
    | none => .error .tooDeep
  else do
    let value ← e.evaluate.mapError .evaluation
    return Numeral.canonical value

/-- What the debug log, if it is kept, says of a tree that a text was read as. -/
def loggedWithin (room : Room) (debug : Bool) (text : String) (e : Expr) : Except Crash String :=
  if !debug then .ok ""
  else match e.describeWithin room.describing with
    | some description => .ok (readEntry text description)
    | none => .error .tooDeep

end Expr
end Calculator
