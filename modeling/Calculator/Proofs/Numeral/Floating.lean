import Calculator.Expr.Describe
import Calculator.Malformed
import Calculator.Proofs.Decimal.Form
import Calculator.Proofs.Numeral.ReadBack
import Calculator.Proofs.Token.Rounding

/-! Floating numerals.

The text of a double that is not zero is a literal behind its sign. Its number rounds to the
double, no number of fewer digits does, and no more digits are written than that takes
(`floating_shortest`). Which form it has is told by the power of ten that its first digit counts:
a point stands among the digits, with one on either side at least, or an exponent of two digits or
more comes after them, and never both. -/
namespace Calculator
open Binary64 Literal

/-- A text that spells a number is a literal of that value. -/
theorem Literal.Spells.exists_isText {text : List Char} {value : ℚ} (h : Spells text value) :
    ∃ l, IsText text l ∧ l.value = value := by
  obtain ⟨l, hread, hvalue⟩ := h.reads [] ends_nil
  obtain ⟨whole, htext, hl⟩ := exists_text_of_read? hread
  rw [List.append_nil, List.append_nil] at htext
  exact ⟨l, htext ▸ hl, l.value_toDecimal.symm.trans hvalue⟩

/-! ### Rounding -/

namespace Binary64

/-- What a number of either sign rounds to: below zero, the opposite of what its opposite does. -/
def Rounds (q : ℚ) (x : Float) : Prop :=
  if q < 0 then RoundsTo (-q) (-x) else RoundsTo q x

theorem value_zero : value 0 = 0 := by
  have hzero := value_of_finite ofFloat_zero
  rw [units_zero] at hzero
  exact (mul_eq_zero.1 hzero).resolve_right unitsPerOne_pos.ne'

/-- Zero is nearer to what is not below zero than a double below zero is. -/
theorem RoundsTo.value_nonneg {q : ℚ} {x : Float} (h : RoundsTo q x) (hq : 0 ≤ q)
    (hx : x.isFinite = true) : 0 ≤ value x := by
  by_contra hneg
  have hnearest := h.nearest 0 hx (by decide)
  rw [value_zero, zero_sub, abs_neg, abs_of_nonneg hq, abs_of_nonpos (by linarith)] at hnearest
  linarith

/-- A decimal rounds to a double only if that has the nearest rank and no sign. -/
theorem RoundsTo.isNearest {digits : Nat} {q : ℚ} {x : Float} {negative : Bool} {rank : Nat}
    (h : RoundsTo q x) (hq : 0 ≤ q) (hdecimal : Decimal.IsDecimal digits q)
    (hx : ofFloat x = .finite negative rank) (hne : rank ≠ 0) :
    negative = false ∧ IsNearest rank (q * unitsPerOne) := by
  have hfinite := isFinite_iff.2 ⟨_, _, hx⟩
  have hnonneg := h.value_nonneg hq hfinite
  have hvalue := value_of_finite hx
  cases negative with
  | true =>
    have hunits : (0 : ℚ) < units rank := by exact_mod_cast units_pos hne
    have hpos := mul_nonneg hnonneg unitsPerOne_pos.le
    rw [hvalue, if_pos rfl] at hpos
    linarith
  | false =>
    obtain ⟨m, k, -, rfl⟩ := hdecimal.exists_nat hq
    have hnear := (Decimal.mk m k).isNearest_rank
    have hle := (Decimal.mk m k).rank_le
    generalize (Decimal.mk m k).rank = nearest at hnear hle
    have hsame := h.unique (hnear.roundsTo hq)
      ⟨(zero_le_iff hx).2 (.inl rfl), ne_neg_zero_of_finite hx⟩
      ⟨(unsigned_ofRank hle).1, (unsigned_ofRank hle).2.1⟩
    have hlt : nearest < infinityRank := by
      refine Nat.lt_of_le_of_ne hle fun hinfinity => ?_
      rw [hsame, hinfinity, ofRank_infinityRank] at hfinite
      exact absurd hfinite (by decide)
    rw [hsame, ofFloat_ofRank hlt] at hx
    cases hx
    exact ⟨rfl, hnear⟩

theorem Rounds.isNearest {digits : Nat} {q : ℚ} {x : Float} {negative : Bool} {rank : Nat}
    (h : Rounds q x) (hdecimal : Decimal.IsDecimal digits q)
    (hx : ofFloat x = .finite negative rank) (hne : rank ≠ 0) :
    IsNearest rank (|q| * unitsPerOne) := by
  unfold Rounds at h
  split at h
  · next hneg =>
    rw [abs_of_neg hneg]
    exact (h.isNearest (by linarith) hdecimal.neg (ofFloat_neg hx) hne).2
  · next hnonneg =>
    rw [abs_of_nonneg (not_lt.1 hnonneg)]
    exact (h.isNearest (not_lt.1 hnonneg) hdecimal hx hne).2

/-- The number that a magnitude rounds from, with the sign of the double. -/
theorem rounds_of_isNearest {x : Float} {negative : Bool} {rank : Nat} {q : ℚ}
    (hx : ofFloat x = .finite negative rank) (hq : 0 < q) (h : IsNearest rank (q * unitsPerOne)) :
    Rounds (if negative then -q else q) x := by
  have hrounds := h.roundsTo hq.le
  cases negative with
  | true =>
    have hneg : -q < 0 := by linarith
    rw [if_pos rfl, Rounds, if_pos hneg, neg_neg, ← ofRank_of_finite (ofFloat_neg hx)]
    exact hrounds
  | false =>
    rw [if_neg Bool.false_ne_true, Rounds, if_neg (not_lt.2 hq.le), ← ofRank_of_finite hx]
    exact hrounds

end Binary64

namespace Numeral

/-- **A floating numeral is the shortest that rounds to its double**: no number of fewer digits than
are written does, and no zeros are written but those that say where the point is or make up its
form. The power of ten that the first digit counts decides between the forms. The numeral is what
messages and descriptions of trees show, and what a double that is no integer is written as. -/
theorem floating_shortest (x : Float) (hfinite : x.isFinite = true) (hzero : value x ≠ 0) :
    ((Malformed.missingOperatorBeforeNumber x).message = "missing operator before " ++ floating x ∧
      (Expr.constant x).describe = "Constant(value=" ++ floating x ++ ")" ∧
      ((∀ n : ℤ, value x ≠ n) → canonical x = floating x)) ∧
    ∃ (text : List Char) (l : Literal) (e : ℤ),
      (floating x).toList = (if x < 0 then ['-'] else []) ++ text ∧ IsText text l ∧
      Rounds (if x < 0 then -l.value else l.value) x ∧
      (∀ digits q, Decimal.IsDecimal digits q → Rounds q x →
        Decimal.IsDecimal digits l.value ∧ (Decimal.significand text).length ≤ digits) ∧
      10 ^ e ≤ l.value ∧ l.value < 10 ^ (e + 1) ∧
      (Decimal.IsPositional text ↔ -4 ≤ e ∧ e < 16) ∧
      (Decimal.IsScientific text e ↔ ¬ (-4 ≤ e ∧ e < 16)) := by
  have hx := isFinite_iff.1 hfinite
  refine ⟨⟨rfl, rfl, canonical_of_value_ne hx⟩, ?_⟩
  obtain ⟨negative, rank, hx⟩ := hx
  have hrank := rank_lt_of_ofFloat hx
  have hne : rank ≠ 0 := by
    rintro rfl
    have hvalue := value_of_finite hx
    rw [units_zero, Nat.cast_zero, neg_zero, ite_self] at hvalue
    exact hzero ((mul_eq_zero.1 hvalue).resolve_right unitsPerOne_pos.ne')
  have hnegative : (x < 0) = (negative = true) :=
    propext ((lt_zero_iff hx).trans (and_iff_left hne))
  have hcoefficient := coefficient_shortest_ne_zero hrank hne
  obtain ⟨l, hl, hvalue⟩ := (Decimal.spells_write layout hcoefficient).exists_isText
  obtain ⟨hlower, hupper⟩ := Decimal.value_bounds hcoefficient
  obtain ⟨hsignificand, hpositional, hscientific⟩ := Decimal.form_write hcoefficient
  have hnear : IsNearest rank (l.value * unitsPerOne) := by
    have hself := (Decimal.shortest rank).isNearest_rank
    rwa [Decimal.rank_shortest hrank, Decimal.inUnits, ← hvalue] at hself
  rw [← hvalue] at hlower hupper
  refine ⟨layout.write (Decimal.shortest rank), l, (Decimal.shortest rank).leadingExponent, ?_, hl,
    ?_, fun digits q hdecimal hrounds => ?_, hlower, hupper, hpositional, hscientific⟩
  · simp only [floating, hx, String.toList_append, String.toList_ofList, hnegative]
    cases negative <;> rfl
  · simp only [hnegative]
    exact rounds_of_isNearest hx (lt_of_lt_of_le (by positivity) hlower) hnear
  · have habs : Decimal.IsDecimal digits |q| := by
      rcases abs_choice q with h | h <;> rw [h]
      · exact hdecimal
      · exact hdecimal.neg
    have hshortest := Decimal.isDecimal_shortest hrank hne (abs_nonneg q) habs
      (hrounds.isNearest hdecimal hx hne)
    rw [hvalue, hsignificand]
    exact ⟨hshortest, Decimal.length_significantDigits_le hcoefficient hshortest⟩

/-- Below zero, with an exponent that is filled up to two digits. -/
theorem floating_shortest_small :
    (-1e-5 : Float).isFinite = true ∧ value (-1e-5) ≠ 0 ∧ floating (-1e-5) = "-1e-05" ∧
      ∃ (text : List Char) (l : Literal) (e : ℤ),
        "-1e-05".toList = ['-'] ++ text ∧ IsText text l ∧ Rounds (-l.value) (-1e-5) ∧
        10 ^ e ≤ l.value ∧ l.value < 10 ^ (e + 1) ∧
        (Decimal.IsScientific text e ↔ ¬ (-4 ≤ e ∧ e < 16)) := by
  have hfinite : (-1e-5 : Float).isFinite = true := by decide +kernel
  have hzero : value (-1e-5) ≠ 0 := by decide +kernel
  have htext : floating (-1e-5) = "-1e-05" := by decide +kernel
  have hnegative : (-1e-5 : Float) < 0 := by decide +kernel
  obtain ⟨-, text, l, e, hshown, hl, hrounds, -, hlower, hupper, -, hform⟩ :=
    floating_shortest (-1e-5) hfinite hzero
  rw [htext, if_pos hnegative] at hshown
  rw [if_pos hnegative] at hrounds
  exact ⟨hfinite, hzero, htext, text, l, e, hshown, hl, hrounds, hlower, hupper, hform⟩

end Numeral
end Calculator
