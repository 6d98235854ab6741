import Calculator.Expr
import Calculator.Numeral

/-! Expressions as text.

An operand stands in parentheses only where reading the text would otherwise
group it differently. Printing calls itself for the operands, so it takes as many
calls under way at a time as the tree has levels, and where there is room for fewer
there is no text (`printWithin_eq`). -/
namespace Calculator.Expr

def parenthesizeIf (condition : Bool) (text : String) : String :=
  if condition then "(" ++ text ++ ")" else text

/-- Whether the operand of a sign needs parentheses. -/
def needsParensAfterSign : Expr → Bool
  | .binary .. => true
  | _ => false

/-- Whether the left operand of `op` needs parentheses: unless its own operator comes first. -/
def needsParensBefore (op : BinaryOp) (left : Expr) : Bool :=
  match left.operator? with
  | some inner => !inner.leftFirst (.binary op)
  | none => false

/-- Whether the right operand of `op` needs parentheses: if `op` would come first. -/
def needsParensAfter (op : BinaryOp) : (right : Expr) → Bool
  | .binary inner _ _ => (Operator.binary op).leftFirst (.binary inner)
  | _ => false

/-- The operator between its operands; only a power stands close. -/
def spaced (op : BinaryOp) : String :=
  match op with
  | .power => "^"
  | op => " " ++ String.singleton op.symbol.toChar ++ " "

def print : Expr → String
  | .constant x => Numeral.canonical x
  | .unary op e =>
    String.singleton op.symbol.toChar ++ parenthesizeIf e.needsParensAfterSign e.print
  | .binary op l r =>
    parenthesizeIf (l.needsParensBefore op) l.print ++ spaced op ++
      parenthesizeIf (r.needsParensAfter op) r.print
  | .foreign text => text

/-- The text of a tree, if there is room for so many calls under way as printing it takes. -/
def printWithin : (room : Nat) → Expr → Option String
  | 0, _ => none
  | _ + 1, .constant x => some (Numeral.canonical x)
  | room + 1, .unary op e => do
    let operand ← e.printWithin room
    return String.singleton op.symbol.toChar ++ parenthesizeIf e.needsParensAfterSign operand
  | room + 1, .binary op l r => do
    let left ← l.printWithin room
    let right ← r.printWithin room
    return parenthesizeIf (l.needsParensBefore op) left ++ spaced op ++
      parenthesizeIf (r.needsParensAfter op) right
  | _ + 1, .foreign text => some text

theorem printWithin_eq (room : Nat) (e : Expr) :
    e.printWithin room = if e.height ≤ room then some e.print else none := by
  induction e generalizing room with
  | constant | foreign =>
    cases room with
    | zero => rfl
    | succ room => exact (if_pos (Nat.le_add_left 1 room)).symm
  | unary op e ih =>
    cases room with
    | zero => exact (if_neg (Nat.not_succ_le_zero _)).symm
    | succ room =>
      simp only [printWithin, ih, height, Nat.add_le_add_iff_right, if_room_bind]
      rfl
  | binary op l r ihl ihr =>
    cases room with
    | zero => exact (if_neg (Nat.not_succ_le_zero _)).symm
    | succ room =>
      simp only [printWithin, ihl, ihr, height, Nat.add_le_add_iff_right, if_room_bind,
        if_room_if_room]
      rfl

end Calculator.Expr
