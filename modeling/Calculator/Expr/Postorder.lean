import Calculator.Expr
import Calculator.Malformed

/-! Trees in postorder, and stacks of operands.

The postorder of a tree lists its nodes, operands before their operator. Run on a
stack of operands, a leaf is pushed and an operator takes its operands off the top
and leaves the tree they make, so the postorder of a tree builds that tree.

A stack is changed in place: it is there as well when something goes wrong, in
whatever state it was left. Stacks are listed from the top. -/
namespace Calculator

/-- What is done to a stack of operands. -/
abbrev OnOperands := EStateM Malformed (List Expr)

namespace Operator

/-- The operands on top make way for the tree that the operator makes of them. -/
def replaceOperands : Operator → List Expr → List Expr
  | .unary op, x :: below => .unary op x :: below
  | .binary op, y :: x :: below => .binary op x y :: below
  | _, operands => operands

/-- Replaces the operands on top, after a look at how many there are. -/
def act (op : Operator) : OnOperands Unit := do
  if (← get).length < op.arity then throw (.missingOperand op)
  modify op.replaceOperands

/-- The operands after an operator was applied to them. -/
def apply (op : Operator) (operands : List Expr) : Except Malformed (List Expr) :=
  match op.act operands with
  | .ok _ operands => .ok operands
  | .error e _ => .error e

theorem act_eq (op : Operator) (operands : List Expr) : op.act operands =
    if operands.length < op.arity then .error (.missingOperand op) operands
    else .ok () (op.replaceOperands operands) := by
  have hact : op.act operands = (if operands.length < op.arity then
      throw (.missingOperand op) >>= fun _ => modify op.replaceOperands
    else modify op.replaceOperands : OnOperands Unit) operands := rfl
  rw [hact]
  split <;> rfl

theorem apply_eq (op : Operator) (operands : List Expr) : op.apply operands =
    if operands.length < op.arity then .error (.missingOperand op)
    else .ok (op.replaceOperands operands) := by
  rw [apply, act_eq]
  by_cases h : operands.length < op.arity
  · rw [if_pos h, if_pos h]
  · rw [if_neg h, if_neg h]

@[simp] theorem apply_unary (op : UnaryOp) (x : Expr) (below : List Expr) :
    (unary op).apply (x :: below) = .ok (.unary op x :: below) := rfl

@[simp] theorem apply_binary (op : BinaryOp) (x y : Expr) (below : List Expr) :
    (binary op).apply (y :: x :: below) = .ok (.binary op x y :: below) := rfl

end Operator

/-- A node by itself. -/
inductive Node where
  | constant (value : Float)
  | operator (op : Operator)
  | foreign (text : String)
deriving DecidableEq, Repr

namespace Expr

/-- The postorder of a tree, put before the nodes given. -/
def postorderOnto : Expr → List Node → List Node
  | .constant x, rest => .constant x :: rest
  | .unary op e, rest => e.postorderOnto (.operator (.unary op) :: rest)
  | .binary op l r, rest => l.postorderOnto (r.postorderOnto (.operator (.binary op) :: rest))
  | .foreign text, rest => .foreign text :: rest

def postorder (e : Expr) : List Node :=
  e.postorderOnto []

theorem postorderOnto_eq (e : Expr) (rest : List Node) :
    e.postorderOnto rest = e.postorder ++ rest := by
  unfold postorder
  induction e generalizing rest with
  | constant | foreign => rfl
  | unary op e ih =>
    simp only [postorderOnto, ih (_ :: _), List.append_assoc, List.cons_append, List.nil_append]
  | binary op l r ihl ihr =>
    simp only [postorderOnto, ihr (_ :: _), ihl (_ ++ _), List.append_assoc, List.cons_append,
      List.nil_append]

end Expr

namespace Node

/-- Pushes an operand or applies an operator. -/
def act : Node → OnOperands Unit
  | .constant x => modify (.constant x :: ·)
  | .operator op => op.act
  | .foreign text => modify (.foreign text :: ·)

/-- What went wrong with a node, if anything, and the stack it left. -/
def outcome (operands : List Expr) (node : Node) : Option Malformed × List Expr :=
  match node.act operands with
  | .ok _ operands => (none, operands)
  | .error e operands => (some e, operands)

/-- The outcome of each node in turn. What goes wrong with one is no reason to stop. -/
def outcomes (operands : List Expr) : List Node → List (Option Malformed × List Expr)
  | [] => []
  | node :: rest =>
    let result := node.outcome operands
    result :: outcomes result.2 rest

end Node

/-- The tree whose postorder this is. -/
def Expr.ofPostorder? (nodes : List Node) : Option Expr :=
  match nodes.forM Node.act [] with
  | .ok _ [e] => some e
  | _ => none

end Calculator
