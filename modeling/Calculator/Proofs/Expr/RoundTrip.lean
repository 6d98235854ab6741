import Calculator.Calculation
import Calculator.Proofs.Expr.Print
import Calculator.Proofs.Token.Munch
import Calculator.Proofs.Yard.Grammar

/-! Printing and reading back.

A printed tree is read as its normal form, because the tokens printed are those from
which the normal form is derived. For a tree without signed constants that is the tree
itself, and no list of tokens that it can be read from is shorter than what is printed,
or as short and another. -/
namespace Calculator
open Binary64

theorem tokenize_print {e : Expr} (hgenuine : e.IsGenuine)
    (hfinite : ∀ x ∈ e.constants, IsFinite x) : tokenize e.print = .ok e.norm.tokens := by
  have hscans := Expr.scans_print hgenuine hfinite Literal.ends_nil
  have hnil : Token.scan [] = ([], []) := Token.scan_of_none rfl
  rwa [Token.Scans, hnil, List.append_nil, List.append_nil, ← tokenize_eq_ok_iff] at hscans

namespace Expr

theorem ofTokens_tokens {e : Expr} (h : e.IsGenuine) : ofTokens e.tokens = .ok e :=
  ofTokens_of_derives ((derives_tokens h).mono e.phrase.level_sum_le)

theorem tokens_injective {e e' : Expr} (hgenuine : e.IsGenuine) (hgenuine' : e'.IsGenuine)
    (h : e.tokens = e'.tokens) : e = e' := by
  have hread := ofTokens_tokens hgenuine
  rw [h, ofTokens_tokens hgenuine'] at hread
  exact (Except.ok.inj hread).symm

theorem ofText_print {e : Expr} (hgenuine : e.IsGenuine)
    (hfinite : ∀ x ∈ e.constants, IsFinite x) : ofText e.print = .ok e.norm := by
  rw [ofText, tokenize_print hgenuine hfinite]
  show (ofTokens e.norm.tokens).mapError Failure.malformed = _
  rw [ofTokens_tokens (isGenuine_norm hgenuine)]
  rfl

/-- **A printed tree is read as its normal form.** It is the tree itself exactly if no constant
is negative or the negative zero, and without a negative zero it has the same value, in any
arithmetic where minus is the opposite. -/
theorem ofText_print_eq_norm (e : Expr) (hgenuine : e.IsGenuine)
    (hfinite : ∀ x ∈ e.constants, x.isFinite = true) :
    ofText e.print = .ok e.norm ∧
      (ofText e.print = .ok e ↔ ∀ x ∈ e.constants, 0 ≤ x ∧ x ≠ -0.0) ∧
      ∀ arithmetic : Arithmetic, arithmetic.Negates → (∀ x ∈ e.constants, x ≠ -0.0) →
        ∃ value, e.evaluateWith arithmetic = .ok value ∧
          calculateWith arithmetic e.print = .ok value := by
  have hfinite : ∀ x ∈ e.constants, IsFinite x := fun x hx => isFinite_iff.1 (hfinite x hx)
  have hread := ofText_print hgenuine hfinite
  refine ⟨hread, ?_, fun arithmetic hnegates hzero => ?_⟩
  · rw [hread, ← norm_eq_self_iff hfinite]
    simp
  · obtain ⟨value, hvalue⟩ := exists_value arithmetic ((foreigns_eq_nil_iff e).2 hgenuine)
    refine ⟨value, by rw [evaluateWith_eq, hvalue], ?_⟩
    have hnorm : e.norm.evaluateWith arithmetic = .ok value := by
      rw [evaluateWith_eq, value_norm hnegates hfinite hzero, hvalue]
    rw [calculateWith, hread]
    show (e.norm.evaluateWith arithmetic).mapError Failure.evaluation = _
    rw [hnorm]
    rfl

/-- A signed base, a signed exponent and a signed operand after a minus. -/
theorem ofText_print_signed :
    (binary .subtract (binary .power (constant (-2.5)) (constant (-1))) (constant (-3))).IsGenuine ∧
      ofText (binary .subtract (binary .power (constant (-2.5)) (constant (-1)))
          (constant (-3))).print =
        .ok (binary .subtract (binary .power (unary .minus (constant 2.5))
          (unary .minus (constant 1))) (unary .minus (constant 3))) ∧
      Arithmetic.ieee.Negates ∧ ∃ value, (binary .subtract (binary .power (constant (-2.5)) (constant (-1)))
          (constant (-3))).evaluate = .ok value ∧
        calculate (binary .subtract (binary .power (constant (-2.5)) (constant (-1)))
          (constant (-3))).print = .ok value := by
  have hgenuine : (binary .subtract (binary .power (constant (-2.5)) (constant (-1)))
      (constant (-3))).IsGenuine := ⟨⟨trivial, trivial⟩, trivial⟩
  obtain ⟨hread, -, hvalue⟩ := ofText_print_eq_norm _ hgenuine (by decide)
  have hnegates := Arithmetic.negates_ieee
  exact ⟨hgenuine, hread, hnegates, hvalue .ieee hnegates (by decide)⟩

/-! ### The shortest text -/

/-- A list of tokens that is read as a tree is the tree's own or longer. -/
theorem eq_tokens_or_length_lt {tokens : List Token} {e : Expr} (h : ofTokens tokens = .ok e) :
    tokens = e.tokens ∨ e.tokens.length < tokens.length := by
  have hderives := (derives_of_ofTokens h).eq_tokensIn_or_length_lt
  rwa [tokensIn_sum] at hderives

/-- **A tree without signed constants is printed in the fewest tokens.** No other list that is
read as the tree is as short, so no pair of parentheses can be left out. -/
theorem print_shortest (e : Expr) (hgenuine : e.IsGenuine)
    (hunsigned : ∀ x ∈ e.constants, x.isFinite = true ∧ 0 ≤ x ∧ x ≠ -0.0) :
    ∃ printed, tokenize e.print = .ok printed ∧ ofTokens printed = .ok e ∧
      (∀ tokens, ofTokens tokens = .ok e → printed.length ≤ tokens.length ∧
        (tokens.length = printed.length → tokens = printed)) ∧
      ∀ before inside after, printed = before ++ .openParen :: inside ++ .closeParen :: after →
        ofTokens (before ++ inside ++ after) ≠ .ok e := by
  have hfinite : ∀ x ∈ e.constants, IsFinite x := fun x hx => isFinite_iff.1 (hunsigned x hx).1
  have hnorm : e.norm = e := (norm_eq_self_iff hfinite).2 fun x hx => (hunsigned x hx).2
  have hprinted := tokenize_print hgenuine hfinite
  rw [hnorm] at hprinted
  refine ⟨e.tokens, hprinted, ofTokens_tokens hgenuine, fun tokens h => ?_, ?_⟩
  · rcases eq_tokens_or_length_lt h with rfl | hlt
    · exact ⟨Nat.le_refl _, fun _ => rfl⟩
    · exact ⟨Nat.le_of_lt hlt, fun heq => absurd heq (Nat.ne_of_gt hlt)⟩
  · intro before inside after hpair h
    have hlength := congrArg List.length hpair
    simp only [List.length_append, List.length_cons] at hlength
    rcases eq_tokens_or_length_lt h with heq | hlt
    · have := congrArg List.length heq
      simp only [List.length_append] at this
      omega
    · simp only [List.length_append] at hlt
      omega

/-- A sum as a factor. -/
theorem print_shortest_factor :
    (binary .multiply (binary .add (constant 1) (constant 0.5)) (constant 0)).IsGenuine ∧
      (∀ x ∈ [(1 : Float), 0.5, 0], x.isFinite = true ∧ 0 ≤ x ∧ x ≠ -0.0) ∧
      ∃ printed,
        tokenize (binary .multiply (binary .add (constant 1) (constant 0.5)) (constant 0)).print =
            .ok printed ∧
          ∀ tokens, ofTokens tokens =
              .ok (binary .multiply (binary .add (constant 1) (constant 0.5)) (constant 0)) →
            printed.length ≤ tokens.length := by
  have hgenuine :
      (binary .multiply (binary .add (constant 1) (constant 0.5)) (constant 0)).IsGenuine :=
    ⟨⟨trivial, trivial⟩, trivial⟩
  have hunsigned : ∀ x ∈ [(1 : Float), 0.5, 0], x.isFinite = true ∧ 0 ≤ x ∧ x ≠ -0.0 := by decide
  obtain ⟨printed, hprinted, -, hshortest, -⟩ := print_shortest _ hgenuine hunsigned
  exact ⟨hgenuine, hunsigned, printed, hprinted, fun tokens h => (hshortest tokens h).1⟩

end Expr
end Calculator
