import Calculator.Calculation
import Calculator.Proofs.Expr.Value
import Calculator.Proofs.Yard.Grammar

/-! What can become of a text.

A tree that was read holds nothing foreign, and so it has a value. Whichever of the two is
asked for, then, a text has an answer exactly if its characters make tokens and its tokens
make a tree; otherwise the first of these that fails is to blame (`answer_cases`). -/
namespace Calculator

theorem Derives.isGenuine_expr {p : Phrase} {tokens : List Token} {e : Expr}
    (h : Derives p tokens e) : e.IsGenuine := by
  induction h using inductLevel with
  | mono _ _ ih => exact ih
  | number x => trivial
  | sign op _ ih => exact ih
  | binary op _ _ ihl ihr => exact ⟨ihl, ihr⟩
  | group _ ih => exact ih

theorem Expr.isGenuine_of_ofTokens {tokens : List Token} {e : Expr} (h : ofTokens tokens = .ok e) :
    e.IsGenuine :=
  (derives_of_ofTokens h).isGenuine_expr

theorem Expr.exists_evaluate {e : Expr} (h : e.IsGenuine) : ∃ value, e.evaluate = .ok value := by
  obtain ⟨value, hvalue⟩ := exists_value .ieee ((foreigns_eq_nil_iff e).2 h)
  exact ⟨value, by rw [evaluate, evaluateWith_eq, hvalue]⟩

theorem Expr.ofText_of_lexError {text : String} {e : LexError} (h : tokenize text = .error e) :
    ofText text = .error (.lex e) := by
  rw [ofText, h]
  rfl

theorem Expr.ofText_of_tokens {text : String} {tokens : List Token} (h : tokenize text = .ok tokens) :
    ofText text = (ofTokens tokens).mapError .malformed := by
  rw [ofText, h]
  rfl

theorem Expr.exists_tokens_of_ofText {text : String} {e : Expr} (h : ofText text = .ok e) :
    ∃ tokens, tokenize text = .ok tokens ∧ ofTokens tokens = .ok e := by
  cases htokens : tokenize text with
  | error error =>
    rw [ofText_of_lexError htokens] at h
    contradiction
  | ok tokens =>
    rw [ofText_of_tokens htokens] at h
    cases he : ofTokens tokens with
    | error error =>
      rw [he] at h
      contradiction
    | ok tree =>
      rw [he] at h
      cases h
      exact ⟨tokens, rfl, he⟩

/-- Texts of the same tokens have the same tree. -/
theorem Expr.ofText_congr {text text' : String} (h : tokenize text = tokenize text') :
    ofText text = ofText text' := by
  rw [ofText, ofText, h]

theorem answer_congr {text text' : String} (h : tokenize text = tokenize text') (showTree : Bool) :
    answer showTree text = answer showTree text' := by
  rw [answer, answer, Expr.ofText_congr h]

/-! ### Answers -/

theorem answer_of_error {text : String} {failure : Failure} (h : Expr.ofText text = .error failure)
    (showTree : Bool) : answer showTree text = .error failure := by
  rw [answer, h]
  rfl

theorem exists_answer {text : String} {e : Expr} (h : Expr.ofText text = .ok e)
    (hgenuine : e.IsGenuine) (showTree : Bool) : ∃ result, answer showTree text = .ok result := by
  obtain ⟨value, hvalue⟩ := Expr.exists_evaluate hgenuine
  cases showTree with
  | true => exact ⟨e.print, by rw [answer, h]; rfl⟩
  | false =>
    refine ⟨Numeral.canonical value, ?_⟩
    rw [answer, h]
    show (e.evaluate.mapError Failure.evaluation >>= fun value => .ok (Numeral.canonical value)) = _
    rw [hvalue]
    rfl

/-- **Three things can become of a text**, and which does not depend on what is asked for: no
tokens, tokens that make no tree, or an answer. -/
theorem answer_cases (text : String) :
    (∃ e, tokenize text = .error e ∧ ∀ showTree, answer showTree text = .error (.lex e)) ∨
      (∃ tokens e, tokenize text = .ok tokens ∧ Expr.ofTokens tokens = .error e ∧
        ∀ showTree, answer showTree text = .error (.malformed e)) ∨
      ∃ tokens e, tokenize text = .ok tokens ∧ Expr.ofTokens tokens = .ok e ∧
        ∀ showTree, ∃ result, answer showTree text = .ok result := by
  cases htokens : tokenize text with
  | error e => exact .inl ⟨e, rfl, answer_of_error (Expr.ofText_of_lexError htokens)⟩
  | ok tokens =>
    have htext := Expr.ofText_of_tokens htokens
    cases he : Expr.ofTokens tokens with
    | error e =>
      rw [he] at htext
      exact .inr (.inl ⟨tokens, e, rfl, he, answer_of_error htext⟩)
    | ok e =>
      rw [he] at htext
      exact .inr (.inr ⟨tokens, e, rfl, he, exists_answer htext (Expr.isGenuine_of_ofTokens he)⟩)

/-- What fails does not depend on what is asked for. -/
theorem answer_eq_error_of_error {showTree : Bool} {text : String} {failure : Failure}
    (h : answer showTree text = .error failure) (showTree' : Bool) :
    answer showTree' text = .error failure := by
  rcases answer_cases text with ⟨_, -, hlex⟩ | ⟨_, _, -, -, hmalformed⟩ | ⟨_, _, -, -, hresult⟩
  · rw [hlex] at h ⊢
    exact h
  · rw [hmalformed] at h ⊢
    exact h
  · obtain ⟨result, hresult⟩ := hresult showTree
    rw [hresult] at h
    contradiction

/-- Evaluation is never to blame. -/
theorem failure_cases {showTree : Bool} {text : String} {failure : Failure}
    (h : answer showTree text = .error failure) :
    (∃ e, failure = .lex e) ∨ ∃ e, failure = .malformed e := by
  rcases answer_cases text with ⟨e, -, hlex⟩ | ⟨_, e, -, -, hmalformed⟩ | ⟨_, _, -, -, hresult⟩
  · rw [hlex] at h
    cases h
    exact .inl ⟨e, rfl⟩
  · rw [hmalformed] at h
    cases h
    exact .inr ⟨e, rfl⟩
  · obtain ⟨result, hresult⟩ := hresult showTree
    rw [hresult] at h
    contradiction

end Calculator
