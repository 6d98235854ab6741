import Calculator.Proofs.Expr.Value

/-! Values and tasks in balance.

Whatever is still to do will change the height of the stack of values by a known amount: a
visit, with all that it leads to, by one, and a fold by one less what it takes (`Task.gain`).
A list of tasks is in balance with a height if, read from the first task on, every fold finds
its values and one value is left in the end (`Balanced`). A task that is carried out keeps
the balance (`Balanced.perform`), so all that an evaluation reaches is in balance
(`Reaches.balanced`) and no fold ever finds too few values. And every task brings the end
nearer by one, so how many there will be is known from the start (`Reaches.remaining_add`). -/
namespace Calculator

/-- By how much a task, with all that it leads to, raises the stack of values. -/
def Task.gain : Task → Int
  | .visit _ => 1
  | .fold op => 1 - op.arity

theorem Operator.exists_fold? (arithmetic : Arithmetic) {op : Operator} {values : List Float}
    (h : op.arity ≤ values.length) :
    ∃ left, op.fold? arithmetic values = some left ∧ left.length = values.length + 1 - op.arity := by
  cases op with
  | unary op =>
    obtain ⟨x, rest, rfl⟩ := List.exists_cons_of_length_pos h
    exact ⟨_, rfl, rfl⟩
  | binary op =>
    obtain ⟨y, below, rfl⟩ := List.exists_cons_of_length_pos (Nat.lt_of_succ_lt h)
    obtain ⟨x, rest, rfl⟩ := List.exists_cons_of_length_pos (Nat.lt_of_succ_lt_succ h)
    exact ⟨_, rfl, rfl⟩

namespace Evaluation

def gainOf : List Task → Int
  | [] => 0
  | task :: rest => task.gain + gainOf rest

/-! ### Balance -/

/-- Read from the first task on, at this height, every fold finds its values, and one value is
left in the end. -/
def Balanced : List Task → Nat → Prop
  | [], height => height = 1
  | .visit _ :: todo, height => Balanced todo (height + 1)
  | .fold op :: todo, height => op.arity ≤ height ∧ Balanced todo (height + 1 - op.arity)

theorem balanced_ofExpr (e : Expr) : Balanced (ofExpr e).todo (ofExpr e).values.length := rfl

namespace Balanced
variable {arithmetic : Arithmetic} {task : Task} {op : Operator} {todo : List Task}
  {values : List Float} {height : Nat}

/-- When the first tasks have been carried out the others are in balance with the height then. -/
theorem of_append {before after : List Task} (h : Balanced (before ++ after) height) :
    ∃ reached, Balanced after reached ∧ reached = height + gainOf before := by
  induction before generalizing height with
  | nil => exact ⟨height, h, (Int.add_zero _).symm⟩
  | cons task before ih =>
    cases task with
    | visit e =>
      obtain ⟨reached, hafter, hreached⟩ := ih h
      refine ⟨reached, hafter, ?_⟩
      simp only [gainOf, Task.gain]
      omega
    | fold op =>
      obtain ⟨harity, hrest⟩ := h
      obtain ⟨reached, hafter, hreached⟩ := ih hrest
      refine ⟨reached, hafter, ?_⟩
      simp only [gainOf, Task.gain]
      omega

theorem height_add_gainOf (h : Balanced todo height) : height + gainOf todo = 1 := by
  rw [← List.append_nil todo] at h
  obtain ⟨reached, hend, hreached⟩ := h.of_append
  rw [← hreached, show reached = 1 from hend]
  rfl

/-- A fold finds its values when its turn comes. -/
theorem arity_le {before after : List Task} (h : Balanced (before ++ .fold op :: after) height) :
    op.arity ≤ height + gainOf before := by
  obtain ⟨reached, ⟨harity, -⟩, hreached⟩ := h.of_append
  omega

theorem perform_fold (h : Balanced (.fold op :: todo) values.length) (arithmetic : Arithmetic) :
    ∃ left, perform arithmetic (.fold op) ⟨todo, values⟩ = .ok ⟨todo, left⟩ ∧
      Balanced todo left.length := by
  obtain ⟨harity, hbalanced⟩ := h
  obtain ⟨left, hfold, hlength⟩ := Operator.exists_fold? arithmetic harity
  refine ⟨left, ?_, hlength ▸ hbalanced⟩
  rw [perform, hfold]

theorem perform {next : Evaluation} (h : Balanced (task :: todo) values.length)
    (hperform : perform arithmetic task ⟨todo, values⟩ = .ok next) :
    Balanced next.todo next.values.length := by
  cases task with
  | fold op =>
    obtain ⟨left, hleft, hbalanced⟩ := h.perform_fold arithmetic
    cases hleft.symm.trans hperform
    exact hbalanced
  | visit e =>
    cases e with
    | constant x =>
      cases hperform
      exact h
    | unary op e =>
      cases hperform
      exact ⟨Nat.le_add_left 1 _, h⟩
    | binary op l r =>
      cases hperform
      exact ⟨Nat.le_add_left 2 _, h⟩
    | foreign text => contradiction

end Balanced

/-! ### What an evaluation reaches -/

/-- `Reaches arithmetic s n s'`: with `n` tasks carried out `s` has become `s'`. -/
inductive Reaches (arithmetic : Arithmetic) : Evaluation → Nat → Evaluation → Prop where
  | refl (s : Evaluation) : Reaches arithmetic s 0 s
  | step {task todo values next n s} : perform arithmetic task ⟨todo, values⟩ = .ok next →
      Reaches arithmetic next n s → Reaches arithmetic ⟨task :: todo, values⟩ (n + 1) s

section Reaches
variable {arithmetic : Arithmetic} {s s' : Evaluation} {n : Nat}

theorem Reaches.balanced (h : Reaches arithmetic s n s')
    (hbalanced : Balanced s.todo s.values.length) : Balanced s'.todo s'.values.length := by
  induction h with
  | refl => exact hbalanced
  | step hperform _ ih => exact ih (hbalanced.perform hperform)

theorem Reaches.remaining_add (h : Reaches arithmetic s n s') : s'.remaining + n = s.remaining := by
  induction h with
  | refl => rfl
  | @step task todo values next n s hperform _ ih =>
    have hstep := remaining_of_perform hperform
    have hfirst : remaining ⟨task :: todo, values⟩ = work task + remaining ⟨todo, values⟩ := rfl
    omega

/-- To go on from what was reached comes to the same. -/
theorem Reaches.run_eq (h : Reaches arithmetic s n s') : s.run arithmetic = s'.run arithmetic := by
  induction h with
  | refl => rfl
  | step hperform _ ih =>
    rw [run_cons, hperform]
    exact ih

theorem exists_reaches_of_run {values : List Float} (h : s.run arithmetic = .ok values) :
    ∃ n, Reaches arithmetic s n ⟨[], values⟩ := by
  fun_induction run arithmetic s with
  | case1 s hs =>
    cases h
    exact ⟨0, hs ▸ .refl s⟩
  | case2 s task todo hs error herror => contradiction
  | case3 s task todo hs next hnext ih =>
    obtain ⟨n, hreaches⟩ := ih h
    obtain ⟨_, values⟩ := s
    cases hs
    exact ⟨n + 1, .step hnext hreaches⟩

end Reaches

/-- **Values and tasks always match.** In every state that the evaluation of a tree reaches, the
values there are and those to come add up to one, and every fold finds its values when its turn
comes, so the one that comes first can be carried out. A tree without foreign nodes takes as many
tasks as it has nodes and operators, and then exactly one value is left. -/
theorem reaches_balanced (arithmetic : Arithmetic) (e : Expr) :
    (∀ n s, Reaches arithmetic (ofExpr e) n s →
      s.values.length + gainOf s.todo = 1 ∧
      (∀ before op after, s.todo = before ++ .fold op :: after →
        op.arity ≤ s.values.length + gainOf before) ∧
      (∀ op todo, s.todo = .fold op :: todo →
        ∃ left, perform arithmetic (.fold op) ⟨todo, s.values⟩ = .ok ⟨todo, left⟩) ∧
      (ofExpr e).run arithmetic = s.run arithmetic) ∧
    (e.IsGenuine → ∃ value, e.evaluateWith arithmetic = .ok value ∧ ∀ n values,
      Reaches arithmetic (ofExpr e) n ⟨[], values⟩ ↔ n = e.nodes + e.operators ∧ values = [value]) := by
  constructor
  · intro n s hreaches
    have hbalanced := hreaches.balanced (balanced_ofExpr e)
    refine ⟨hbalanced.height_add_gainOf, fun before op after htodo => ?_, fun op todo htodo => ?_,
      hreaches.run_eq⟩
    · rw [htodo] at hbalanced
      exact hbalanced.arity_le
    · rw [htodo] at hbalanced
      obtain ⟨left, hleft, -⟩ := hbalanced.perform_fold arithmetic
      exact ⟨left, hleft⟩
  · intro hgenuine
    obtain ⟨value, hvalue⟩ := Expr.exists_value arithmetic ((Expr.foreigns_eq_nil_iff e).2 hgenuine)
    have hrun : (ofExpr e).run arithmetic = .ok [value] := by
      rw [run_ofExpr, hvalue]
      rfl
    have hcount {n : Nat} {values : List Float} (h : Reaches arithmetic (ofExpr e) n ⟨[], values⟩) :
        n = e.nodes + e.operators := by
      have hremaining := h.remaining_add
      simpa [remaining, workOf, ofExpr, work] using hremaining
    refine ⟨value, by rw [Expr.evaluateWith_eq, hvalue], fun n values => ⟨fun h => ?_, ?_⟩⟩
    · have hend := h.run_eq
      rw [hrun, run_nil] at hend
      cases hend
      exact ⟨hcount h, rfl⟩
    · rintro ⟨rfl, rfl⟩
      obtain ⟨n, h⟩ := exists_reaches_of_run hrun
      exact hcount h ▸ h

/-- With a sign about to be folded there is a value for it, and there will be two for the power. -/
theorem reaches_balanced_sign :
    Reaches .ieee (ofExpr (.binary .power (.unary .minus (.constant 2)) (.foreign "x"))) 3
        ⟨[.fold (.unary .minus), .visit (.foreign "x"), .fold (.binary .power)], [2]⟩ ∧
      (Operator.binary .power).arity ≤ 1 + gainOf [.fold (.unary .minus), .visit (.foreign "x")] ∧
      (∃ left, perform .ieee (.fold (.unary .minus))
          ⟨[.visit (.foreign "x"), .fold (.binary .power)], [2]⟩ =
        .ok ⟨[.visit (.foreign "x"), .fold (.binary .power)], left⟩) ∧
      (Expr.unary .minus (.constant 2)).IsGenuine ∧
      ∃ value, (Expr.unary .minus (.constant 2)).evaluateWith .ieee = .ok value ∧
        Reaches .ieee (ofExpr (.unary .minus (.constant 2))) 3 ⟨[], [value]⟩ := by
  have hreaches : Reaches .ieee
      (ofExpr (.binary .power (.unary .minus (.constant 2)) (.foreign "x"))) 3
      ⟨[.fold (.unary .minus), .visit (.foreign "x"), .fold (.binary .power)], [2]⟩ :=
    .step rfl (.step rfl (.step rfl (.refl _)))
  obtain ⟨hall, -⟩ :=
    reaches_balanced .ieee (.binary .power (.unary .minus (.constant 2)) (.foreign "x"))
  obtain ⟨-, hfinds, hfirst, -⟩ := hall _ _ hreaches
  obtain ⟨-, hgenuine⟩ := reaches_balanced .ieee (.unary .minus (.constant 2))
  obtain ⟨value, hvalue, hend⟩ := hgenuine trivial
  exact ⟨hreaches, hfinds [.fold (.unary .minus), .visit (.foreign "x")] (.binary .power) [] rfl,
    hfirst _ _ rfl, trivial, value, hvalue, (hend _ _).2 ⟨rfl, rfl⟩⟩

end Evaluation
end Calculator
