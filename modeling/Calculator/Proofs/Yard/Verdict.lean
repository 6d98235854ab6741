import Calculator.Proofs.Yard.Shortage

/-! What becomes of a list of tokens.

A counter that scans the tokens tells whether there is a tree and, if not, what the
complaint is (`Counter.decides_ofTokens`). -/
namespace Calculator

namespace Counter
variable {tokens : List Token}

/-- The last step of a scan without complaint. -/
theorem exists_last_step (hcomplaint : start.firstComplaint? tokens = none) {token : Token}
    (hlast : tokens.getLast? = some token) :
    ∃ (c : Counter) (y y' : Yard), start.run tokens = c.next token ∧ c.complaint? token = none ∧ c.Agrees y ∧
      y.step token = .ok y' ∧ Yard.start.run tokens = .ok y' := by
  obtain ⟨before, rfl⟩ := List.getLast?_eq_some_iff.1 hlast
  rw [firstComplaint?_append, Option.or_eq_none_iff, firstComplaint?, Option.or_eq_none_iff]
    at hcomplaint
  obtain ⟨y, hrun, hagrees⟩ := Agrees.start.run_of_no_complaint hcomplaint.1
  obtain ⟨y', hstep, -⟩ := hagrees.step_of_no_complaint hcomplaint.2.1
  refine ⟨_, y, y', run_append .., hcomplaint.2.1, hagrees, hstep, ?_⟩
  rw [Yard.run_append, hrun]
  show y.step token >>= _ = _
  rw [hstep]
  rfl

/-- An operand has to come at the very beginning, after a parenthesis that was opened and after
an operator. -/
theorem last_of_expecting (hcomplaint : start.firstComplaint? tokens = none)
    (hexpecting : (start.run tokens).expecting = true) :
    tokens = [] ∨ tokens.getLast? = some .openParen ∨
      ∃ symbol, tokens.getLast? = some (.operator symbol) := by
  cases hlast : tokens.getLast? with
  | none => exact .inl (List.getLast?_eq_none_iff.1 hlast)
  | some token =>
    obtain ⟨c, y, y', hrun, hstands, -⟩ := exists_last_step hcomplaint hlast
    rw [hrun] at hexpecting
    cases token with
    | number | closeParen => contradiction
    | operator symbol => exact .inr (.inr ⟨symbol, rfl⟩)
    | openParen => exact .inr (.inl rfl)
    | foreign => contradiction

theorem ofTokens_of_last_openParen (hcomplaint : start.firstComplaint? tokens = none)
    (hlast : tokens.getLast? = some .openParen) : Expr.ofTokens tokens = .error .unmatchedOpen := by
  obtain ⟨c, y, y', -, -, -, hstep, hrun⟩ := exists_last_step hcomplaint hlast
  obtain ⟨rest, hentries⟩ := List.head?_eq_some_iff.1 (Yard.head?_entries_of_step_openParen hstep)
  rw [Expr.ofTokens_of_run hrun]
  exact Yard.finish_of_drain_error (by rw [hentries]; rfl)

theorem ofTokens_of_last_operator (hcomplaint : start.firstComplaint? tokens = none)
    {symbol : Symbol} (hlast : tokens.getLast? = some (.operator symbol)) :
    ∃ y error, Yard.start.run tokens = .ok y ∧ Yard.RunsShort symbol y.entries error ∧
      error = shortage symbol (start.runRoots [none] tokens) ∧
      Expr.ofTokens tokens = .error error := by
  obtain ⟨c, y, y', hcounter, -, -, hstep, hrun⟩ := exists_last_step hcomplaint hlast
  obtain ⟨y', hrun', hagrees⟩ := Agrees.start.run_of_no_complaint hcomplaint
  cases hrun.symm.trans hrun'
  have hroots := Reads.roots_run (.expecting .nil) Agrees.start hcomplaint hrun
  have hlength : y'.operands.length = Yard.joints y'.entries := by
    obtain ⟨frames, operand?, rfl, hexpecting, -⟩ := hagrees
    rw [hcounter] at hexpecting
    cases operand? with
    | none => exact Yard.length_operands frames
    | some e => contradiction
  obtain ⟨error, hshort, hdrain⟩ :=
    Yard.exists_runsShort (Yard.head?_entries_of_step_operator hstep) hlength
  refine ⟨y', error, hrun, hshort, ?_, ?_⟩
  · rw [hshort.eq_shortage, hroots]
    rfl
  · rw [Expr.ofTokens_of_run hrun, Yard.finish_of_drain_error hdrain]

theorem ofTokens_eq_expectedOne_iff (tokens : List Token) (found : Nat) :
    Expr.ofTokens tokens = .error (.expectedOne found) ↔ tokens = [] ∧ found = 0 := by
  constructor
  · intro h
    cases hcomplaint : start.firstComplaint? tokens with
    | some error =>
      rw [Expr.ofTokens_of_complaint hcomplaint] at h
      cases h
      exact absurd hcomplaint (firstComplaint?_ne_expectedOne _ _ _)
    | none =>
      cases hexpecting : (start.run tokens).expecting with
      | true =>
        rcases last_of_expecting hcomplaint hexpecting with rfl | hlast | ⟨symbol, hlast⟩
        · cases h
          exact ⟨rfl, rfl⟩
        · rw [ofTokens_of_last_openParen hcomplaint hlast] at h
          cases h
        · obtain ⟨y, error, -, hshort, -, herror⟩ := ofTokens_of_last_operator hcomplaint hlast
          rw [herror] at h
          cases h
          contradiction
      | false =>
        rcases ofTokens_of_operand hcomplaint hexpecting with ⟨-, e, he⟩ | ⟨-, herror⟩
        · rw [he] at h
          cases h
        · rw [herror] at h
          cases h
  · rintro ⟨rfl, rfl⟩
    rfl

/-- **The counter decides what becomes of a list of tokens.** The first token that may not stand
where it does is the one complained of, in the words for it there, whatever comes after it, and no
operator is short of operands then. Otherwise there is a tree exactly if the list ends with an operand and no
parenthesis is open. A list ending with an operand or an open parenthesis has a parenthesis
unmatched, and one ending with an operator lacks what its outermost operator lacks, which can be
told from the tokens. Only the empty list has another number of expressions than one. -/
theorem decides_ofTokens (tokens : List Token) :
    (∀ before token after error, tokens = before ++ token :: after →
      start.firstComplaint? before = none → (start.run before).complaint? token = some error →
        Expr.ofTokens tokens = .error error ∧
          error.message = (start.run before).refusal token ∧ ∀ op, error ≠ .missingOperand op) ∧
    (start.firstComplaint? tokens = none →
      ((∃ e, Expr.ofTokens tokens = .ok e) ↔
        (start.run tokens).expecting = false ∧ (start.run tokens).depth = 0) ∧
      ((start.run tokens).expecting = false ∧ 0 < (start.run tokens).depth ∨
          tokens.getLast? = some .openParen → Expr.ofTokens tokens = .error .unmatchedOpen) ∧
      ∀ symbol, tokens.getLast? = some (.operator symbol) →
        ∃ y error, Yard.start.run tokens = .ok y ∧ Yard.RunsShort symbol y.entries error ∧
          error = shortage symbol (start.runRoots [none] tokens) ∧
          Expr.ofTokens tokens = .error error) ∧
    (∀ found, Expr.ofTokens tokens = .error (.expectedOne found) ↔ tokens = [] ∧ found = 0) ∧
    Malformed.message .unmatchedOpen = "unmatched '('" ∧
    (∀ op : Operator, (Malformed.missingOperand op).message = op.text ++ " is missing an operand") ∧
    (Malformed.expectedOne 0).message = "expected one expression, found 0" := by
  refine ⟨?_, fun hcomplaint => ⟨exists_ofTokens_iff hcomplaint, ?_, fun symbol hlast =>
    ofTokens_of_last_operator hcomplaint hlast⟩, ofTokens_eq_expectedOne_iff tokens, rfl,
    fun op => rfl, rfl⟩
  · rintro before token after error rfl hbefore htoken
    have hcomplaint : start.firstComplaint? (before ++ token :: after) = some error := by
      rw [firstComplaint?_append, hbefore, firstComplaint?, htoken]
      rfl
    refine ⟨Expr.ofTokens_of_complaint hcomplaint, message_of_complaint htoken, fun op => ?_⟩
    rintro rfl
    exact complaint?_ne_missingOperand _ token op htoken
  · rintro (⟨hexpecting, hdepth⟩ | hlast)
    · rcases ofTokens_of_operand hcomplaint hexpecting with ⟨hzero, -⟩ | ⟨-, herror⟩
      · omega
      · exact herror
    · exact ofTokens_of_last_openParen hcomplaint hlast

/-- The first of two faults, and an operand of an outer group that is taken inside. -/
theorem decides_ofTokens_faults :
    start.firstComplaint? [.number 1] = none ∧
      Expr.ofTokens [.number 1, .closeParen, .foreign "x"] = .error .unmatchedClose ∧
      Malformed.unmatchedClose.message = "unmatched ')'" ∧
      start.firstComplaint?
        [.number 1, .operator .plus, .openParen, .number 2, .operator .times] = none ∧
      Expr.ofTokens [.number 1, .operator .plus, .openParen, .number 2, .operator .times] =
        .error .unmatchedOpen := by
  have hbefore : start.firstComplaint? [.number 1] = none := rfl
  have hcomplaint : start.firstComplaint?
      [.number 1, .operator .plus, .openParen, .number 2, .operator .times] = none := rfl
  obtain ⟨hfirst, -⟩ := decides_ofTokens [.number 1, .closeParen, .foreign "x"]
  obtain ⟨hread, hmessage, -⟩ := hfirst [.number 1] .closeParen [.foreign "x"] .unmatchedClose rfl hbefore rfl
  obtain ⟨-, hend, -⟩ :=
    decides_ofTokens [.number 1, .operator .plus, .openParen, .number 2, .operator .times]
  obtain ⟨y, error, -, -, herror, hshort⟩ := (hend hcomplaint).2.2 .times rfl
  obtain rfl : error = .unmatchedOpen := herror.trans (by decide)
  exact ⟨hbefore, hread, hmessage, hcomplaint, hshort⟩

end Counter
end Calculator
