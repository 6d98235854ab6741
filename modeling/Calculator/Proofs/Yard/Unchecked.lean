import Calculator.Proofs.Yard.Grammar

/-! The yard without its checks.

Operators and parentheses can be read without asking whether a token may stand where it does.
Such a yard takes in more than expressions: `2 3 +` makes the same tree as `2 + 3`, and `1 (2) -`
the same as `1 - 2`. All that the checks do is to refuse. Until one of them does, both yards go
through the same states (`Yard.run_cases`), so a list that no check refuses comes to the same in
both, the same tree or the same complaint. And what a check refuses has no derivation, so that
nothing is lost (`Expr.ofTokensUnchecked_conservative`). -/
namespace Calculator

/-- Whether the complaint is that operands and operators do not alternate. -/
def Malformed.IsOutOfTurn : Malformed → Prop
  | .missingOperatorBeforeNumber _ | .missingOperatorBeforeParen | .missingLeftOperand _ |
    .missingOperandBeforeClose => True
  | _ => False

namespace Yard

/-- Takes tokens in wherever they stand. -/
def runUnchecked (y : Yard) (tokens : List Token) : Except Malformed Yard :=
  tokens.foldlM advance y

/-- All tokens up to one are taken in, and a check refuses that one. -/
def Refuses (y : Yard) (tokens : List Token) (error : Malformed) : Prop :=
  ∃ before token after next, tokens = before ++ token :: after ∧ y.run before = .ok next ∧
    next.check token = .error error

end Yard

/-- The tree of a list of tokens read without checks. -/
def Expr.ofTokensUnchecked (tokens : List Token) : Except Malformed Expr := do
  let y ← Yard.start.runUnchecked tokens
  y.finish

namespace Yard
variable {y : Yard} {token : Token} {tokens : List Token} {error : Malformed}

/-! ### Side by side -/

theorem step_of_check_ok (h : y.check token = .ok ()) : y.step token = y.advance token := by
  rw [step_eq, h]
  rfl

theorem run_of_refuses (h : y.Refuses tokens error) : y.run tokens = .error error := by
  obtain ⟨before, token, after, next, rfl, hrun, hcheck⟩ := h
  rw [run_append, hrun]
  show next.run (token :: after) = _
  rw [run_cons, step_eq, hcheck]
  rfl

/-- A check refuses a token, or the yards go side by side. -/
theorem run_cases (y : Yard) (tokens : List Token) :
    (∃ error, y.Refuses tokens error) ∨ y.run tokens = y.runUnchecked tokens := by
  induction tokens generalizing y with
  | nil => exact .inr rfl
  | cons token tokens ih =>
    cases hcheck : y.check token with
    | error error => exact .inl ⟨error, [], token, tokens, y, rfl, rfl, hcheck⟩
    | ok =>
      have hstep := step_of_check_ok hcheck
      rw [run_cons, hstep, runUnchecked, List.foldlM_cons]
      cases hadvance : y.advance token with
      | error error => exact .inr rfl
      | ok next =>
        rcases ih next with ⟨error, before, refused, after, last, rfl, hrun, hrefused⟩ | hrun
        · refine .inl ⟨error, token :: before, refused, after, last, rfl, ?_, hrefused⟩
          rw [run_cons, hstep, hadvance]
          exact hrun
        · exact .inr hrun

/-- A parenthesis that a check lets pass finds the flag as it leaves it. -/
theorem expecting_of_step_paren {next : Yard} (h : token = .openParen ∨ token = .closeParen)
    (hstep : y.step token = .ok next) : next.expecting = y.expecting := by
  obtain ⟨operands, entries, expecting⟩ := y
  rcases h with rfl | rfl
  · cases expecting with
    | true =>
      cases hstep
      rfl
    | false => contradiction
  · cases expecting with
    | true => contradiction
    | false =>
      rw [step_of_check_ok rfl, advance] at hstep
      cases hreduce : reduceWhile (fun _ => true) operands entries with
      | error error =>
        simp only [hreduce] at hstep
        contradiction
      | ok result =>
        simp only [hreduce, bind, Except.bind] at hstep
        split at hstep
        · cases hstep
          rfl
        · contradiction

/-! ### Who complains of what -/

theorem isOutOfTurn_of_check (h : y.check token = .error error) : error.IsOutOfTurn := by
  cases token with
  | number | openParen | closeParen =>
    rw [check] at h
    split at h <;> cases h
    trivial
  | operator symbol =>
    rw [check] at h
    split at h
    · contradiction
    · split at h <;> cases h
      trivial
  | foreign => contradiction

/-- Whatever goes wrong, it is no matter of turns. -/
def InTurn {α : Type} (result : Except Malformed α) : Prop :=
  ∀ error, result = .error error → ¬ error.IsOutOfTurn

theorem inTurn_ok {α : Type} (a : α) : InTurn (.ok a) := fun _ h => by contradiction

theorem inTurn_error {α : Type} (h : ¬ error.IsOutOfTurn) : InTurn (.error error : Except _ α) := by
  rintro _ ⟨⟩
  exact h

theorem InTurn.bind {α β : Type} {x : Except Malformed α} {f : α → Except Malformed β} (hx : InTurn x)
    (hf : ∀ a, InTurn (f a)) : InTurn (x >>= f) := by
  cases x with
  | error error => exact inTurn_error (hx error rfl)
  | ok a => exact hf a

theorem inTurn_apply (op : Operator) (operands : List Expr) : InTurn (op.apply operands) := by
  rw [Operator.apply_eq]
  split
  · exact inTurn_error id
  · exact inTurn_ok _

theorem inTurn_reduceWhile (p : Operator → Bool) (operands : List Expr) (entries : List Entry) :
    InTurn (reduceWhile p operands entries) := by
  induction entries generalizing operands with
  | nil => exact inTurn_ok _
  | cons entry entries ih =>
    cases entry with
    | paren => exact inTurn_ok _
    | operator op =>
      rw [reduceWhile]
      split
      · exact (inTurn_apply op operands).bind ih
      · exact inTurn_ok _

theorem inTurn_drain (operands : List Expr) (entries : List Entry) :
    InTurn (drain operands entries) := by
  induction entries generalizing operands with
  | nil => exact inTurn_ok _
  | cons entry entries ih =>
    cases entry with
    | paren => exact inTurn_error id
    | operator op => exact (inTurn_apply op operands).bind ih

theorem inTurn_advance (y : Yard) (token : Token) : InTurn (y.advance token) := by
  cases token with
  | number | openParen => exact inTurn_ok _
  | operator symbol =>
    rw [advance]
    split
    · exact inTurn_ok _
    · exact (inTurn_reduceWhile _ _ _).bind fun _ => inTurn_ok _
  | closeParen =>
    refine (inTurn_reduceWhile _ _ _).bind fun result => ?_
    dsimp only
    split
    · exact inTurn_ok _
    · exact inTurn_error id
  | foreign text => exact inTurn_error id

theorem inTurn_runUnchecked (y : Yard) (tokens : List Token) : InTurn (y.runUnchecked tokens) := by
  induction tokens generalizing y with
  | nil => exact inTurn_ok _
  | cons token tokens ih =>
    rw [runUnchecked, List.foldlM_cons]
    exact (inTurn_advance y token).bind ih

theorem inTurn_finish (y : Yard) : InTurn y.finish := by
  refine (inTurn_drain y.operands y.entries).bind fun operands => ?_
  split
  · exact inTurn_ok _
  · exact inTurn_error id

end Yard

/-! ### Trees and complaints -/

namespace Expr

theorem ofTokens_of_refuses {tokens : List Token} {error : Malformed}
    (h : Yard.start.Refuses tokens error) : ofTokens tokens = .error error := by
  rw [ofTokens, Yard.run_of_refuses h]
  rfl

theorem ofTokens_cases (tokens : List Token) :
    (∃ error, Yard.start.Refuses tokens error) ∨ ofTokens tokens = ofTokensUnchecked tokens := by
  rcases Yard.start.run_cases tokens with hrefuses | hrun
  · exact .inl hrefuses
  · exact .inr (by rw [ofTokens, ofTokensUnchecked, hrun])

theorem inTurn_ofTokensUnchecked (tokens : List Token) : Yard.InTurn (ofTokensUnchecked tokens) :=
  (Yard.inTurn_runUnchecked Yard.start tokens).bind Yard.inTurn_finish

/-- **The checks only refuse, and only what is no expression.** Without them there is the same tree
for a list that has one, and the same complaint about a list unless it is a check that complains. A
list that only the yard without checks makes a tree of is refused by a check and has no
derivation. The checks are also why a parenthesis need not touch the flag. -/
theorem ofTokensUnchecked_conservative (tokens : List Token) :
    (∀ e, ofTokens tokens = .ok e → ofTokensUnchecked tokens = .ok e) ∧
    (∀ error, ofTokens tokens = .error error →
      (error.IsOutOfTurn ↔ Yard.start.Refuses tokens error) ∧
      (¬ Yard.start.Refuses tokens error → ofTokensUnchecked tokens = .error error)) ∧
    (∀ e, ofTokensUnchecked tokens = .ok e → (¬ ∃ t, ofTokens tokens = .ok t) →
      (∃ error, ofTokens tokens = .error error ∧ Yard.start.Refuses tokens error) ∧
      ¬ ∃ t, Derives .sum tokens t) ∧
    ∀ (y next : Yard) (token : Token), token = .openParen ∨ token = .closeParen →
      y.step token = .ok next → next.expecting = y.expecting := by
  refine ⟨fun e he => ?_, fun error herror => ⟨⟨fun hturn => ?_, fun hrefuses => ?_⟩,
    fun hrefuses => ?_⟩, fun e he hnone => ⟨?_, ?_⟩, fun y next token => Yard.expecting_of_step_paren⟩
  · rcases ofTokens_cases tokens with ⟨error, hrefuses⟩ | heq
    · rw [ofTokens_of_refuses hrefuses] at he
      contradiction
    · rw [← heq, he]
  · rcases ofTokens_cases tokens with ⟨error', hrefuses⟩ | heq
    · cases herror.symm.trans (ofTokens_of_refuses hrefuses)
      exact hrefuses
    · exact absurd hturn (inTurn_ofTokensUnchecked tokens error (heq ▸ herror))
  · obtain ⟨before, token, after, next, -, -, hcheck⟩ := hrefuses
    exact Yard.isOutOfTurn_of_check hcheck
  · rcases ofTokens_cases tokens with ⟨error', hrefuses'⟩ | heq
    · cases herror.symm.trans (ofTokens_of_refuses hrefuses')
      exact absurd hrefuses' hrefuses
    · rw [← heq, herror]
  · rcases ofTokens_cases tokens with ⟨error, hrefuses⟩ | heq
    · exact ⟨error, ofTokens_of_refuses hrefuses, hrefuses⟩
    · exact absurd ⟨e, heq ▸ he⟩ hnone
  · rintro ⟨t, ht⟩
    exact hnone ⟨t, ofTokens_of_derives ht⟩

/-- `1 (2) -` has a tree only if nothing is checked, and `1 )` is refused all the same. -/
theorem ofTokensUnchecked_conservative_postfix :
    ofTokensUnchecked [.number 1, .openParen, .number 2, .closeParen, .operator .minus] =
        .ok (.binary .subtract (.constant 1) (.constant 2)) ∧
      (∃ error,
        ofTokens [.number 1, .openParen, .number 2, .closeParen, .operator .minus] = .error error ∧
        Yard.start.Refuses [.number 1, .openParen, .number 2, .closeParen, .operator .minus] error) ∧
      (¬ ∃ t, Derives .sum [.number 1, .openParen, .number 2, .closeParen, .operator .minus] t) ∧
      ofTokens [.number 1, .closeParen] = .error .unmatchedClose ∧
      ofTokensUnchecked [.number 1, .closeParen] = .error .unmatchedClose ∧
      ofTokens [.number 1] = .ok (.constant 1) ∧ ofTokensUnchecked [.number 1] = .ok (.constant 1) ∧
      Yard.start.step .openParen = .ok ⟨[], [.paren], true⟩ ∧
      Yard.expecting ⟨[], [.paren], true⟩ = Yard.start.expecting := by
  have hread : ofTokensUnchecked [.number 1, .openParen, .number 2, .closeParen, .operator .minus] =
      .ok (.binary .subtract (.constant 1) (.constant 2)) := rfl
  have hnone : ¬ ∃ t,
      ofTokens [.number 1, .openParen, .number 2, .closeParen, .operator .minus] = .ok t := by
    rintro ⟨t, ht⟩
    contradiction
  obtain ⟨-, -, hlost, -⟩ := ofTokensUnchecked_conservative
    [.number 1, .openParen, .number 2, .closeParen, .operator .minus]
  obtain ⟨-, hcomplaint, -⟩ := ofTokensUnchecked_conservative [.number 1, .closeParen]
  obtain ⟨hturn, hsame⟩ := hcomplaint .unmatchedClose rfl
  obtain ⟨htree, -, -, hflag⟩ := ofTokensUnchecked_conservative [.number 1]
  obtain ⟨hrefused, hderives⟩ := hlost _ hread hnone
  exact ⟨hread, hrefused, hderives, rfl, hsame fun hrefuses => hturn.2 hrefuses, rfl, htree _ rfl,
    rfl, hflag _ _ .openParen (.inl rfl) rfl⟩

end Expr
end Calculator
