import Calculator.Expr.Evaluate

/-! The value of an expression by recursion.

`value` says what a tree is worth without tasks or stacks: the operands first, from
left to right, then the operator; a foreign node has no value, and the leftmost one
is to blame. Carrying out the tasks of a tree comes to the same for any arithmetic
(`evaluateWith_eq_value`), so the values and the tasks of a run always match. -/
namespace Calculator

namespace Expr

/-- The value by recursion, the left operand before the right one. -/
def value (arithmetic : Arithmetic) : Expr → Except EvalError Float
  | .constant x => .ok x
  | .unary op e => do
    let x ← e.value arithmetic
    .ok (arithmetic.unary op x)
  | .binary op l r => do
    let x ← l.value arithmetic
    let y ← r.value arithmetic
    .ok (arithmetic.binary op x y)
  | .foreign text => .error (.foreignNode text)

/-- The texts of the foreign nodes, from left to right. -/
def foreigns : Expr → List String
  | .constant _ => []
  | .unary _ e => e.foreigns
  | .binary _ l r => l.foreigns ++ r.foreigns
  | .foreign text => [text]

theorem foreigns_eq_nil_iff (e : Expr) : e.foreigns = [] ↔ e.IsGenuine := by
  induction e with
  | constant x => simp [foreigns, IsGenuine]
  | unary op e ih => simpa [foreigns, IsGenuine] using ih
  | binary op l r ihl ihr => simp [foreigns, IsGenuine, ihl, ihr]
  | foreign text => simp [foreigns, IsGenuine]

theorem exists_value (arithmetic : Arithmetic) {e : Expr} (h : e.foreigns = []) :
    ∃ x, e.value arithmetic = .ok x := by
  induction e with
  | constant x => exact ⟨x, rfl⟩
  | unary op e ih =>
    obtain ⟨x, hx⟩ := ih h
    exact ⟨arithmetic.unary op x, by rw [value, hx]; rfl⟩
  | binary op l r ihl ihr =>
    obtain ⟨hl, hr⟩ := List.append_eq_nil_iff.1 h
    obtain ⟨x, hx⟩ := ihl hl
    obtain ⟨y, hy⟩ := ihr hr
    exact ⟨arithmetic.binary op x y, by rw [value, hx, hy]; rfl⟩
  | foreign text => exact absurd h (List.cons_ne_nil _ _)

/-- The foreign node furthest to the left is the first one met. -/
theorem value_of_foreigns_cons (arithmetic : Arithmetic) {e : Expr} {text : String}
    {rest : List String} (h : e.foreigns = text :: rest) :
    e.value arithmetic = .error (.foreignNode text) := by
  induction e generalizing rest with
  | constant x => exact absurd h.symm (List.cons_ne_nil _ _)
  | unary op e ih =>
    rw [value, ih h]
    rfl
  | binary op l r ihl ihr =>
    rw [foreigns] at h
    cases hl : l.foreigns with
    | nil =>
      rw [hl, List.nil_append] at h
      obtain ⟨x, hx⟩ := exists_value arithmetic hl
      rw [value, hx, ihr h]
      rfl
    | cons first more =>
      rw [hl, List.cons_append] at h
      obtain ⟨rfl, -⟩ := List.cons.inj h
      rw [value, ihl hl]
      rfl
  | foreign _ =>
    obtain ⟨rfl, -⟩ := List.cons.inj h
    rfl

theorem value_eq_error_iff (arithmetic : Arithmetic) (e : Expr) (error : EvalError) :
    e.value arithmetic = .error error ↔
      ∃ text, e.foreigns.head? = some text ∧ error = .foreignNode text := by
  cases h : e.foreigns with
  | nil =>
    obtain ⟨x, hx⟩ := exists_value arithmetic h
    simp [hx]
  | cons text rest => simp [value_of_foreigns_cons arithmetic h, eq_comm]

end Expr

namespace Evaluation

/-! ### Running the tasks -/

theorem run_nil (arithmetic : Arithmetic) (values : List Float) :
    run arithmetic ⟨[], values⟩ = .ok values := by
  rw [run]

theorem run_cons (arithmetic : Arithmetic) (task : Task) (todo : List Task)
    (values : List Float) :
    run arithmetic ⟨task :: todo, values⟩ =
      (perform arithmetic task ⟨todo, values⟩ >>= run arithmetic) := by
  rw [run]
  dsimp only
  split
  · next error h => rw [h]; rfl
  · next s h => rw [h]; rfl

/-- Visiting a tree puts its value on top, whatever is left to do and whatever lies below. -/
theorem run_visit (arithmetic : Arithmetic) (e : Expr) (todo : List Task) (values : List Float) :
    run arithmetic ⟨.visit e :: todo, values⟩ =
      (e.value arithmetic >>= fun x => run arithmetic ⟨todo, x :: values⟩) := by
  induction e generalizing todo values with
  | constant x =>
    rw [run_cons]
    rfl
  | unary op e ih =>
    have fold (x : Float) : run arithmetic ⟨.fold (.unary op) :: todo, x :: values⟩ =
        run arithmetic ⟨todo, arithmetic.unary op x :: values⟩ := run_cons ..
    calc run arithmetic ⟨.visit (.unary op e) :: todo, values⟩
      _ = run arithmetic ⟨.visit e :: .fold (.unary op) :: todo, values⟩ := run_cons ..
      _ = _ := by
        rw [ih, Expr.value]
        simp only [fold, bind_assoc]
        rfl
  | binary op l r ihl ihr =>
    have fold (x y : Float) : run arithmetic ⟨.fold (.binary op) :: todo, y :: x :: values⟩ =
        run arithmetic ⟨todo, arithmetic.binary op x y :: values⟩ := run_cons ..
    calc run arithmetic ⟨.visit (.binary op l r) :: todo, values⟩
      _ = run arithmetic ⟨.visit l :: .visit r :: .fold (.binary op) :: todo, values⟩ := run_cons ..
      _ = _ := by
        rw [ihl, Expr.value]
        simp only [ihr, fold, bind_assoc]
        rfl
  | foreign text =>
    rw [run_cons]
    rfl

/-- A tree's tasks leave its value and nothing else. -/
theorem run_ofExpr (arithmetic : Arithmetic) (e : Expr) :
    (ofExpr e).run arithmetic = (e.value arithmetic).map ([·]) := by
  rw [ofExpr, run_visit]
  simp only [run_nil]
  cases e.value arithmetic <;> rfl

end Evaluation

theorem Expr.evaluateWith_eq (arithmetic : Arithmetic) (e : Expr) :
    e.evaluateWith arithmetic = e.value arithmetic := by
  rw [evaluateWith, Evaluation.run_ofExpr]
  cases e.value arithmetic <;> rfl

/-- Tasks and recursion agree on every tree, they go wrong exactly on trees with foreign nodes,
naming the leftmost one, and a run that ends leaves exactly one value. -/
theorem Expr.evaluateWith_eq_value (arithmetic : Arithmetic) (e : Expr) :
    e.evaluateWith arithmetic = e.value arithmetic ∧
      (∀ error, e.evaluateWith arithmetic = .error error ↔
        ∃ text, e.foreigns.head? = some text ∧ error = .foreignNode text ∧
          error.message = "not an expression node: " ++ Text.quoted text) ∧
      (Evaluation.ofExpr e).run arithmetic = (e.value arithmetic).map ([·]) := by
  refine ⟨evaluateWith_eq arithmetic e, fun error => ?_, Evaluation.run_ofExpr arithmetic e⟩
  rw [evaluateWith_eq, value_eq_error_iff]
  constructor
  · rintro ⟨text, htext, rfl⟩
    exact ⟨text, htext, rfl, rfl⟩
  · rintro ⟨text, htext, rfl, -⟩
    exact ⟨text, htext, rfl⟩

end Calculator
