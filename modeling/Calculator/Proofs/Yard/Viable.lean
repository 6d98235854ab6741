import Calculator.Proofs.Yard.Counter

/-! Beginnings of expressions.

What the yard has taken in can always be gone on with so that there is a tree: a number
where an operand has to come, then a closing parenthesis for each one that is open
(`Counter.completion`). What it refuses it refuses whatever comes after
(`Yard.ofBeginnings_of_step_error`). So a token is refused exactly when it is the first after
which no expression is possible. -/
namespace Calculator

namespace Counter

/-- Tokens to end an expression with. -/
def completion (c : Counter) : List Token :=
  (if c.expecting then [.number 1] else []) ++ List.replicate c.depth.toNat .closeParen

theorem completion_genuine (c : Counter) : ∀ token ∈ c.completion, token.IsGenuine := by
  intro token hmem
  rcases List.mem_append.1 hmem with hmem | hmem
  · split at hmem
    · rw [List.mem_singleton.1 hmem]
      trivial
    · contradiction
  · rw [List.eq_of_mem_replicate hmem]
    trivial

theorem run_closing (n : Nat) :
    firstComplaint? ⟨false, n⟩ (List.replicate n .closeParen) = none ∧
      run ⟨false, n⟩ (List.replicate n .closeParen) = ⟨false, 0⟩ := by
  induction n with
  | zero => exact ⟨rfl, rfl⟩
  | succ n ih =>
    have hstands : complaint? ⟨false, (n + 1 : Nat)⟩ .closeParen = none := by
      have : ((n + 1 : Nat) : Int) ≠ 0 := by omega
      simp only [complaint?, this]
      rfl
    have hnext : next ⟨false, (n + 1 : Nat)⟩ .closeParen = ⟨false, n⟩ := by
      have : ((n + 1 : Nat) : Int) - 1 = n := by omega
      rw [next, this]
    rw [List.replicate_succ]
    constructor
    · rw [firstComplaint?, hstands, hnext]
      exact ih.1
    · rw [run, List.foldl_cons, hnext]
      exact ih.2

theorem run_completion {c : Counter} (h : 0 ≤ c.depth) :
    c.firstComplaint? c.completion = none ∧ c.run c.completion = ⟨false, 0⟩ := by
  obtain ⟨expecting, depth⟩ := c
  obtain ⟨n, rfl⟩ := Int.eq_ofNat_of_zero_le h
  cases expecting with
  | true => exact run_closing n
  | false => exact run_closing n

end Counter

namespace Yard

theorem firstComplaint?_of_run {tokens : List Token} {y : Yard} (h : start.run tokens = .ok y) :
    Counter.start.firstComplaint? tokens = none := by
  cases hcomplaint : Counter.start.firstComplaint? tokens with
  | none => rfl
  | some error =>
    rw [Counter.Agrees.start.run_of_complaint hcomplaint] at h
    contradiction

theorem exists_completion {tokens : List Token} {y : Yard} (h : start.run tokens = .ok y) :
    ∃ more e, (∀ token ∈ more, token.IsGenuine) ∧ Expr.ofTokens (tokens ++ more) = .ok e := by
  have hcomplaint := firstComplaint?_of_run h
  obtain ⟨y', -, hagrees⟩ := Counter.Agrees.start.run_of_no_complaint hcomplaint
  obtain ⟨hmore, hend⟩ := Counter.run_completion hagrees.depth_nonneg
  have hwhole : Counter.start.firstComplaint?
      (tokens ++ (Counter.start.run tokens).completion) = none := by
    rw [Counter.firstComplaint?_append, hcomplaint, hmore]
    rfl
  obtain ⟨e, he⟩ := (Counter.exists_ofTokens_iff hwhole).2 (by
    rw [Counter.run_append, hend]
    exact ⟨rfl, rfl⟩)
  exact ⟨_, e, Counter.completion_genuine _, he⟩

theorem ofTokens_of_step_error {before : List Token} {token : Token} {y : Yard} {error : Malformed}
    (hrun : start.run before = .ok y) (hstep : y.step token = .error error) (more : List Token) :
    Expr.ofTokens (before ++ token :: more) = .error error := by
  rw [Expr.ofTokens, run_append, hrun]
  show y.run (token :: more) >>= _ = _
  rw [run_cons, hstep]
  rfl

/-! ### Beginnings -/

/-- What the longer beginnings read as follows on what the shorter ones do. -/
theorem ofBeginnings_append (before after : List Token) :
    Expr.ofBeginnings (before ++ after) = Expr.ofBeginnings before ++
      (List.range after.length).map fun n => Expr.ofTokens (before ++ after.take (n + 1)) := by
  have hlength : before.length + after.length + 1 = (before.length + 1) + after.length := by omega
  rw [Expr.ofBeginnings, List.length_append, hlength, List.range_add, List.map_append, List.map_map]
  congr 1
  · refine List.map_congr_left fun n hn => ?_
    rw [List.take_append_of_le_length (Nat.le_of_lt_succ (List.mem_range.1 hn))]
  · refine List.map_congr_left fun n _ => ?_
    have hpast : before.length + 1 + n = before.length + (n + 1) := by omega
    rw [Function.comp_apply, hpast, List.take_length_add_append]

/-- **From the token that is refused on, all beginnings read as the same complaint.** -/
theorem ofBeginnings_of_step_error {before : List Token} {token : Token} {y : Yard}
    {error : Malformed} (hrun : start.run before = .ok y) (hstep : y.step token = .error error)
    (after : List Token) : Expr.ofBeginnings (before ++ token :: after) =
      Expr.ofBeginnings before ++ List.replicate (after.length + 1) (.error error) := by
  rw [ofBeginnings_append, List.length_cons]
  congr 1
  refine List.eq_replicate_iff.2 ⟨by simp, fun reading hreading => ?_⟩
  obtain ⟨n, -, rfl⟩ := List.mem_map.1 hreading
  rw [List.take_succ_cons]
  exact ofTokens_of_step_error hrun hstep _

/-- **A token is refused exactly when no expression is possible any more.** Whatever comes after
it, there is the same complaint, and before it there was a way to go on; and what has been taken
in as a whole can be gone on with too. -/
theorem run_viable (tokens : List Token) :
    (∀ before token after y error, tokens = before ++ token :: after →
      start.run before = .ok y → y.step token = .error error →
        (∀ more, Expr.ofTokens (before ++ token :: more) = .error error) ∧
        ∃ more e, (∀ t ∈ more, t.IsGenuine) ∧ Expr.ofTokens (before ++ more) = .ok e) ∧
    ∀ y, start.run tokens = .ok y →
      ∃ more e, (∀ t ∈ more, t.IsGenuine) ∧ Expr.ofTokens (tokens ++ more) = .ok e := by
  refine ⟨fun before token after y error _ hrun hstep => ?_, fun y hrun => exists_completion hrun⟩
  exact ⟨ofTokens_of_step_error hrun hstep, exists_completion hrun⟩

/-- After `(1 +` a number can come, but no other `*`. -/
theorem run_viable_in_group :
    start.run [.openParen, .number 1, .operator .plus] =
        .ok ⟨[.constant 1], [.operator (.binary .add), .paren], true⟩ ∧
      (∀ more, Expr.ofTokens
        ([.openParen, .number 1, .operator .plus] ++ .operator .times :: more) =
          .error (.missingLeftOperand .multiply)) ∧
      ∃ more e, (∀ t ∈ more, t.IsGenuine) ∧
        Expr.ofTokens ([.openParen, .number 1, .operator .plus] ++ more) = .ok e := by
  have hrun : start.run [.openParen, .number 1, .operator .plus] =
      .ok ⟨[.constant 1], [.operator (.binary .add), .paren], true⟩ := rfl
  obtain ⟨hrefused, -⟩ :=
    run_viable [.openParen, .number 1, .operator .plus, .operator .times, .closeParen]
  obtain ⟨hmore, -⟩ := hrefused _ _ _ _ (.missingLeftOperand .multiply) rfl hrun rfl
  obtain ⟨-, htaken⟩ := run_viable [.openParen, .number 1, .operator .plus]
  exact ⟨hrun, hmore, htaken _ hrun⟩

end Yard
end Calculator
