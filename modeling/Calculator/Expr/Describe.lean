import Calculator.Expr
import Calculator.Numeral
import Calculator.Text.Quoted

/-! The shape of a tree spelled out, as the debug log shows it.

A description is made of those of the operands, one call inside the other, and where there is not
room for so many calls as the tree has levels there is none (`describeWithin_eq`). -/
namespace Calculator

def UnaryOp.name : UnaryOp → String
  | .plus => "PLUS"
  | .minus => "MINUS"

def BinaryOp.name : BinaryOp → String
  | .add => "PLUS"
  | .subtract => "MINUS"
  | .multiply => "TIMES"
  | .divide => "DIVIDE"
  | .power => "EXPONENT"

def UnaryOp.describe (op : UnaryOp) : String :=
  "<UnaryKind." ++ op.name ++ ": '" ++ String.singleton op.symbol.toChar ++ "'>"

def BinaryOp.describe (op : BinaryOp) : String :=
  "<BinaryKind." ++ op.name ++ ": '" ++ String.singleton op.symbol.toChar ++ "'>"

def Expr.describe : Expr → String
  | .constant x => "Constant(value=" ++ Numeral.floating x ++ ")"
  | .unary op e => "UnaryOperator(kind=" ++ op.describe ++ ", operand=" ++ e.describe ++ ")"
  | .binary op l r =>
    "BinaryOperator(kind=" ++ op.describe ++ ", left=" ++ l.describe ++ ", right=" ++ r.describe ++ ")"
  | .foreign text => Text.quoted text

/-- The description of a tree, if there is room for so many calls under way as it takes. -/
def Expr.describeWithin : (room : Nat) → Expr → Option String
  | 0, _ => none
  | _ + 1, .constant x => some ("Constant(value=" ++ Numeral.floating x ++ ")")
  | room + 1, .unary op e => do
    let operand ← e.describeWithin room
    return "UnaryOperator(kind=" ++ op.describe ++ ", operand=" ++ operand ++ ")"
  | room + 1, .binary op l r => do
    let left ← l.describeWithin room
    let right ← r.describeWithin room
    return "BinaryOperator(kind=" ++ op.describe ++ ", left=" ++ left ++ ", right=" ++ right ++ ")"
  | _ + 1, .foreign text => some (Text.quoted text)

theorem Expr.describeWithin_eq (room : Nat) (e : Expr) :
    e.describeWithin room = if e.height ≤ room then some e.describe else none := by
  induction e generalizing room with
  | constant | foreign =>
    cases room with
    | zero => rfl
    | succ room => exact (if_pos (Nat.le_add_left 1 room)).symm
  | unary op e ih =>
    cases room with
    | zero => exact (if_neg (Nat.not_succ_le_zero _)).symm
    | succ room =>
      simp only [describeWithin, ih, height, Nat.add_le_add_iff_right, if_room_bind]
      rfl
  | binary op l r ihl ihr =>
    cases room with
    | zero => exact (if_neg (Nat.not_succ_le_zero _)).symm
    | succ room =>
      simp only [describeWithin, ihl, ihr, height, Nat.add_le_add_iff_right, if_room_bind,
        if_room_if_room]
      rfl

end Calculator
