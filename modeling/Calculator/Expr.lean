import Calculator.Operator

/-! Expression trees.

Parentheses leave nothing in a tree: grouping is its shape. -/
namespace Calculator

inductive Expr where
  | constant (value : Float)
  | unary (op : UnaryOp) (operand : Expr)
  | binary (op : BinaryOp) (left right : Expr)
  /-- Something that stands in a tree and is no expression, by its text. -/
  | foreign (text : String)
deriving DecidableEq, Repr

namespace Expr

/-- Free of foreign nodes. -/
def IsGenuine : Expr → Prop
  | .constant _ => True
  | .unary _ e => e.IsGenuine
  | .binary _ l r => l.IsGenuine ∧ r.IsGenuine
  | .foreign _ => False

/-- The operator at the root, if there is one. -/
def operator? : Expr → Option Operator
  | .unary op _ => some (.unary op)
  | .binary op _ _ => some (.binary op)
  | _ => none

def nodes : Expr → Nat
  | .constant _ | .foreign _ => 1
  | .unary _ e => e.nodes + 1
  | .binary _ l r => l.nodes + r.nodes + 1

def operators : Expr → Nat
  | .constant _ | .foreign _ => 0
  | .unary _ e => e.operators + 1
  | .binary _ l r => l.operators + r.operators + 1

/-- The levels of a tree. A function that goes through a tree by calling itself has so many calls
under way at a time. -/
def height : Expr → Nat
  | .constant _ | .foreign _ => 1
  | .unary _ e => e.height + 1
  | .binary _ l r => max l.height r.height + 1

/-- A call that there is room for can be gone on from. -/
theorem if_room_bind {α β : Type} (levels room : Nat) (a : α) (next : α → Option β) :
    ((if levels ≤ room then some a else none) >>= next) =
      if levels ≤ room then next a else none := by
  split <;> rfl

/-- Where there is room for the deeper of two calls, there is for both. -/
theorem if_room_if_room {α : Type} (m n room : Nat) (a : Option α) :
    (if m ≤ room then if n ≤ room then a else none else none) =
      if max m n ≤ room then a else none := by
  by_cases hm : m ≤ room <;> simp only [Nat.max_le, hm, true_and, false_and, if_true, if_false]

end Expr
end Calculator
