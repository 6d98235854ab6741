import Calculator.Proofs.Binary64.Value
import Calculator.Proofs.Expr.RoundTrip

/-! The text of a double and the double.

The text of a finite double is a numeral without a sign, or a minus and one, so what it is read
as gives the double back but for the sign of a zero (`eq_of_canonical_eq`). A magnitude that
leaves no rest when it is divided by the units of one is a whole number
(`value_eq_intCast_iff`), and then the text is that of the integer. -/
namespace Calculator.Numeral
open Binary64

theorem tokenize_canonical {x : Float} (h : IsFinite x) :
    tokenize (canonical x) = .ok (Expr.numeral x).tokens := by
  have hconstants : ∀ y ∈ (Expr.constant x).constants, IsFinite y := by
    intro y hy
    rw [List.mem_singleton.1 hy]
    exact h
  exact tokenize_print (e := .constant x) trivial hconstants

/-! ### Whole numbers -/

theorem integer_eq_toString (negative : Bool) (n : Nat) :
    integer negative n = toString (if negative then -(n : ℤ) else n) := by
  cases negative with
  | false => exact String.empty_append
  | true =>
    cases n with
    | zero => rfl
    | succ m => rfl

theorem intCast_mul_eq_iff {n : ℤ} {a d : Nat} (hd : 0 < d) :
    n * d = a ↔ a % d = 0 ∧ n = (a / d : Nat) := by
  have hd' : (d : ℤ) ≠ 0 := by exact_mod_cast hd.ne'
  constructor
  · intro h
    have hdvd : d ∣ a := Int.natCast_dvd_natCast.1 ⟨n, by rw [← h, mul_comm]⟩
    refine ⟨Nat.mod_eq_zero_of_dvd hdvd, mul_right_cancel₀ hd' ?_⟩
    rw [h]
    exact_mod_cast (Nat.div_mul_cancel hdvd).symm
  · intro h
    rw [h.2]
    exact_mod_cast Nat.div_mul_cancel (Nat.dvd_of_mod_eq_zero h.1)

/-- A finite double is an integer exactly if its magnitude is one, and then it is that integer with
its sign. -/
theorem value_eq_intCast_iff {x : Float} {negative : Bool} {rank : Nat}
    (h : ofFloat x = .finite negative rank) (n : ℤ) :
    value x = n ↔ units rank % unitsPerOne = 0 ∧
      n = if negative then -((units rank / unitsPerOne : Nat) : ℤ)
        else (units rank / unitsPerOne : Nat) := by
  have hone : 0 < unitsPerOne := by decide
  rw [← mul_left_inj' unitsPerOne_pos.ne', value_of_finite h]
  cases negative with
  | false =>
    simp only [Bool.false_eq_true, if_false]
    rw [eq_comm, ← intCast_mul_eq_iff hone]
    exact_mod_cast Iff.rfl
  | true =>
    simp only [if_true]
    rw [neg_eq_iff_eq_neg, ← neg_mul, eq_comm, ← neg_eq_iff_eq_neg, ← intCast_mul_eq_iff hone]
    exact_mod_cast Iff.rfl

theorem canonical_of_value_eq {x : Float} (h : IsFinite x) {n : ℤ} (hn : value x = n) :
    canonical x = toString n := by
  obtain ⟨negative, rank, hx⟩ := h
  obtain ⟨hwhole, heq⟩ := (value_eq_intCast_iff hx n).1 hn
  simp only [canonical, hx]
  rw [if_pos hwhole, integer_eq_toString, heq]

theorem canonical_of_value_ne {x : Float} (h : IsFinite x) (hn : ∀ n : ℤ, value x ≠ n) :
    canonical x = floating x := by
  obtain ⟨negative, rank, hx⟩ := h
  simp only [canonical, hx]
  apply if_neg
  intro hwhole
  exact hn _ ((value_eq_intCast_iff hx _).2 ⟨hwhole, rfl⟩)

/-! ### Different texts -/

/-- Equal texts are read as one tree, and its value is the double, but for the negative zero. -/
theorem eq_of_canonical_eq {x y : Float} (hx : IsFinite x) (hy : IsFinite y)
    (h : canonical x = canonical y) : x = y ∨ (x = 0 ∨ x = -0.0) ∧ (y = 0 ∨ y = -0.0) := by
  have hread := tokenize_canonical hx
  rw [h, tokenize_canonical hy] at hread
  have hnumeral : Expr.numeral y = Expr.numeral x :=
    Expr.tokens_injective (Expr.isGenuine_numeral y) (Expr.isGenuine_numeral x) (Except.ok.inj hread)
  have hvalue := congrArg (Expr.value .ieee) hnumeral.symm
  by_cases hxzero : x = -0.0
  · by_cases hyzero : y = -0.0
    · exact .inl (hxzero.trans hyzero.symm)
    · rw [hxzero, Expr.value_numeral_neg_zero, Expr.value_numeral Arithmetic.negates_ieee hy hyzero] at hvalue
      exact .inr ⟨.inr hxzero, .inl (Except.ok.inj hvalue).symm⟩
  · by_cases hyzero : y = -0.0
    · rw [hyzero, Expr.value_numeral_neg_zero, Expr.value_numeral Arithmetic.negates_ieee hx hxzero] at hvalue
      exact .inr ⟨.inl (Except.ok.inj hvalue), .inr hyzero⟩
    · rw [Expr.value_numeral Arithmetic.negates_ieee hx hxzero, Expr.value_numeral Arithmetic.negates_ieee hy hyzero] at hvalue
      exact .inl (Except.ok.inj hvalue)

/-- **The text of a finite double is read as that double.** One below zero is read as a minus and
its opposite, and the negative zero as zero. The text is the integer in full if the double is one
and the floating numeral if not, and only the zeros have the same. -/
theorem tokenize_canonical_of_isFinite (x : Float) (h : x.isFinite = true) :
    (0 ≤ x → x ≠ -0.0 → tokenize (canonical x) = .ok [.number x]) ∧
      (x = -0.0 → canonical x = "0" ∧ tokenize (canonical x) = .ok [.number 0]) ∧
      (x < 0 → tokenize (canonical x) = .ok [.operator .minus, .number (-x)]) ∧
      (∀ n : ℤ, value x = n → canonical x = toString n) ∧
      ((∀ n : ℤ, value x ≠ n) → canonical x = floating x) ∧
      ∀ y : Float, y.isFinite = true → canonical y = canonical x →
        y = x ∨ (y = 0 ∨ y = -0.0) ∧ (x = 0 ∨ x = -0.0) := by
  have hx := isFinite_iff.1 h
  have hread := tokenize_canonical hx
  refine ⟨fun hle hne => ?_, fun hzero => ?_, fun hlt => ?_, fun n => canonical_of_value_eq hx,
    canonical_of_value_ne hx, fun y hy => eq_of_canonical_eq (isFinite_iff.1 hy) hx⟩
  · rw [hread, (Expr.numeral_eq_constant_iff hx).2 ⟨hle, hne⟩]
    rfl
  · have hvalue : value (-0.0) = (0 : ℤ) := by decide +kernel
    have htext : canonical (-0.0) = "0" :=
      canonical_of_value_eq ⟨true, 0, ofFloat_neg_zero⟩ hvalue
    rw [hread, hzero, Expr.numeral_neg_zero]
    exact ⟨htext, rfl⟩
  · rw [hread, Expr.numeral, if_pos hlt]
    rfl

/-- The smallest double above zero, and a power of ten below zero. -/
theorem tokenize_canonical_of_isFinite_bounds :
    (5e-324 : Float).isFinite = true ∧ 0 ≤ (5e-324 : Float) ∧ (5e-324 : Float) ≠ -0.0 ∧
      tokenize (canonical 5e-324) = .ok [.number 5e-324] ∧
      (-1e22 : Float).isFinite = true ∧ (-1e22 : Float) < 0 ∧ value (-1e22) = (-10 ^ 22 : ℤ) ∧
      tokenize (canonical (-1e22)) = .ok [.operator .minus, .number (- -1e22)] ∧
      canonical (-1e22) = "-10000000000000000000000" := by
  have hleast : (5e-324 : Float).isFinite = true := by decide +kernel
  have hunsigned : 0 ≤ (5e-324 : Float) ∧ (5e-324 : Float) ≠ -0.0 := by decide +kernel
  have hpower : (-1e22 : Float).isFinite = true := by decide +kernel
  have hnegative : (-1e22 : Float) < 0 := by decide +kernel
  have hwhole : value (-1e22) = (-10 ^ 22 : ℤ) := by decide +kernel
  obtain ⟨hread, -⟩ := tokenize_canonical_of_isFinite 5e-324 hleast
  obtain ⟨-, -, hsigned, hinteger, -⟩ := tokenize_canonical_of_isFinite (-1e22) hpower
  exact ⟨hleast, hunsigned.1, hunsigned.2, hread hunsigned.1 hunsigned.2, hpower, hnegative, hwhole,
    hsigned hnegative, (hinteger _ hwhole).trans (by decide)⟩

end Calculator.Numeral
