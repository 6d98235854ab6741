import Calculator.Expr.Postorder
import Calculator.Token

/-! Reading a tree off a list of tokens by operator precedence.

A yard holds what has been read so far: the operands that are complete and the
entries that wait, operators for their last operand and open parentheses for their
mate. A token has to be one that may stand where it does. Then it is taken in, and
an operator or a closing parenthesis makes the waiting operators that take their
operand before it do so (`step`). -/
namespace Calculator

/-- Operands and entries are listed from the last one read. -/
structure Yard where
  operands : List Expr
  entries : List Entry
  /-- Whether an operand has to come next. -/
  expecting : Bool
deriving DecidableEq, Repr

namespace Yard

def start : Yard := ⟨[], [], true⟩

/-- Applies the operators that wait last, as far down as `p` allows and to a parenthesis at most. -/
def reduceWhile (p : Operator → Bool) (operands : List Expr) :
    List Entry → Except Malformed (List Expr × List Entry)
  | .operator op :: entries =>
    if p op then do
      let operands ← op.apply operands
      reduceWhile p operands entries
    else .ok (operands, .operator op :: entries)
  | entries => .ok (operands, entries)

/-- Takes a token in, if it may stand where it does: operands and operators have to alternate.
A parenthesis that may leaves it at what has to come next. -/
def step (y : Yard) : Token → Except Malformed Yard
  | .number x =>
    if y.expecting then .ok ⟨.constant x :: y.operands, y.entries, false⟩
    else .error (.missingOperatorBeforeNumber x)
  | .operator symbol =>
    match Operator.ofSymbol symbol y.expecting with
    | .unary op => .ok ⟨y.operands, .operator (.unary op) :: y.entries, true⟩
    | .binary op =>
      if y.expecting then .error (.missingLeftOperand op)
      else do
        let (operands, entries) ← reduceWhile (·.leftFirst (.binary op)) y.operands y.entries
        .ok ⟨operands, .operator (.binary op) :: entries, true⟩
  | .openParen =>
    if y.expecting then .ok { y with entries := .paren :: y.entries }
    else .error .missingOperatorBeforeParen
  | .closeParen =>
    if y.expecting then .error .missingOperandBeforeClose
    else do
      let (operands, entries) ← reduceWhile (fun _ => true) y.operands y.entries
      match entries with
      | .paren :: entries => .ok { y with operands, entries }
      | _ => .error .unmatchedClose
  | .foreign text => .error (.notAToken text)

def run (y : Yard) (tokens : List Token) : Except Malformed Yard :=
  tokens.foldlM step y

/-- Applies all operators that wait, the last first; no parenthesis may be open. -/
def drain (operands : List Expr) : List Entry → Except Malformed (List Expr)
  | [] => .ok operands
  | .paren :: _ => .error .unmatchedOpen
  | .operator op :: entries => do
    let operands ← op.apply operands
    drain operands entries

/-- The one expression that has been read. -/
def finish (y : Yard) : Except Malformed Expr := do
  let operands ← drain y.operands y.entries
  match operands with
  | [e] => .ok e
  | _ => .error (.expectedOne operands.length)

end Yard

def Expr.ofTokens (tokens : List Token) : Except Malformed Expr := do
  let y ← Yard.start.run tokens
  y.finish

/-- What each beginning of a list of tokens reads as, from the empty one to the whole. -/
def Expr.ofBeginnings (tokens : List Token) : List (Except Malformed Expr) :=
  (List.range (tokens.length + 1)).map fun n => ofTokens (tokens.take n)

namespace Yard

@[simp] theorem run_nil (y : Yard) : y.run [] = .ok y := rfl

theorem run_cons (y : Yard) (token : Token) (tokens : List Token) :
    y.run (token :: tokens) = (y.step token >>= (·.run tokens)) := rfl

theorem run_append (y : Yard) (before after : List Token) :
    y.run (before ++ after) = (y.run before >>= (·.run after)) :=
  List.foldlM_append

end Yard
end Calculator
