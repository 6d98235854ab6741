import Calculator.Expr
import Calculator.Text.Quoted

/-! The value of an expression.

A tree is evaluated by a list of tasks and a stack of values: visiting an operator
puts its operands on the list and, behind them, the task of folding their values.
So depth costs no recursion, and operands are visited from left to right. The
arithmetic is a parameter; `ieee` is that of doubles, where every operation has a
value. -/
namespace Calculator

structure Arithmetic where
  unary : UnaryOp → Float → Float
  binary : BinaryOp → Float → Float → Float

/-- One number to the power of another. An exponent that names an operation of its own stands
for it: the quotient of one, one, the square root, the base and the square. The square root
keeps the sign of a zero, and there is none of the infinity below zero. -/
def Arithmetic.power (x y : Float) : Float :=
  if y == -1 then 1 / x
  else if y == 0 then 1
  else if y == 0.5 then x.sqrt
  else if y == 1 then x
  else if y == 2 then x * x
  else x.pow y

/-- Double arithmetic; infinities and NaN in place of failures. -/
def Arithmetic.ieee : Arithmetic where
  unary
    | .plus, x => x
    | .minus, x => -x
  binary
    | .add, x, y => x + y
    | .subtract, x, y => x - y
    | .multiply, x, y => x * y
    | .divide, x, y => x / y
    | .power, x, y => power x y

inductive EvalError where
  | foreignNode (text : String)
  /-- Values and tasks did not match. -/
  | unbalanced
deriving DecidableEq, Repr

def EvalError.message : EvalError → String
  | .foreignNode text => "not an expression node: " ++ Text.quoted text
  | .unbalanced => "values and tasks do not match"

/-- Replaces the values on top, listed from the top, by the operator's value on them. -/
def Operator.fold? (arithmetic : Arithmetic) : Operator → List Float → Option (List Float)
  | .unary op, x :: rest => some (arithmetic.unary op x :: rest)
  | .binary op, y :: x :: rest => some (arithmetic.binary op x y :: rest)
  | _, _ => none

inductive Task where
  | visit (e : Expr)
  | fold (op : Operator)
deriving DecidableEq, Repr

/-- An evaluation under way. -/
structure Evaluation where
  todo : List Task
  values : List Float
deriving DecidableEq, Repr

namespace Evaluation

def ofExpr (e : Expr) : Evaluation := ⟨[.visit e], []⟩

/-- Carries out one task before the others. -/
def perform (arithmetic : Arithmetic) (task : Task) (rest : Evaluation) :
    Except EvalError Evaluation :=
  match task with
  | .visit (.constant x) => .ok ⟨rest.todo, x :: rest.values⟩
  | .visit (.unary op e) => .ok ⟨.visit e :: .fold (.unary op) :: rest.todo, rest.values⟩
  | .visit (.binary op l r) =>
    .ok ⟨.visit l :: .visit r :: .fold (.binary op) :: rest.todo, rest.values⟩
  | .visit (.foreign text) => .error (.foreignNode text)
  | .fold op =>
    match op.fold? arithmetic rest.values with
    | some values => .ok ⟨rest.todo, values⟩
    | none => .error .unbalanced

/-- How many tasks a task amounts to, itself included: every operator is visited and folded. -/
def work : Task → Nat
  | .visit e => e.nodes + e.operators
  | .fold _ => 1

def workOf : List Task → Nat
  | [] => 0
  | task :: rest => work task + workOf rest

def remaining (s : Evaluation) : Nat :=
  workOf s.todo

/-- Each task brings the end nearer by one. -/
theorem remaining_of_perform {arithmetic : Arithmetic} {task : Task} {rest s : Evaluation}
    (h : perform arithmetic task rest = .ok s) : s.remaining + 1 = work task + rest.remaining := by
  unfold perform at h
  split at h
  · cases h
    simp [remaining, work, Expr.nodes, Expr.operators, Nat.add_comm]
  · cases h
    simp only [remaining, workOf, work, Expr.nodes, Expr.operators]
    omega
  · cases h
    simp only [remaining, workOf, work, Expr.nodes, Expr.operators]
    omega
  · contradiction
  · split at h
    · cases h
      simp [remaining, work, Nat.add_comm]
    · contradiction

/-- Carries out all tasks and answers the values left. -/
def run (arithmetic : Arithmetic) (s : Evaluation) : Except EvalError (List Float) :=
  match _hs : s.todo with
  | [] => .ok s.values
  | task :: todo =>
    match _h : perform arithmetic task ⟨todo, s.values⟩ with
    | .error e => .error e
    | .ok next => run arithmetic next
termination_by s.remaining
decreasing_by
  have := remaining_of_perform _h
  simp only [remaining, _hs, workOf] at this ⊢
  omega

end Evaluation

namespace Expr

def evaluateWith (arithmetic : Arithmetic) (e : Expr) : Except EvalError Float :=
  match (Evaluation.ofExpr e).run arithmetic with
  | .ok [value] => .ok value
  | .ok _ => .error .unbalanced
  | .error e => .error e

def evaluate (e : Expr) : Except EvalError Float :=
  e.evaluateWith .ieee

end Expr
end Calculator
