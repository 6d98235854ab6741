import Calculator.Decimal.Layout
import Calculator.Proofs.Token.Literal
import Mathlib.Data.List.TakeWhile

/-! Layouts keep the value.

What counts in the digits of a decimal is the number they make and the place of the
first one (`valueFrom`). Wherever the point is put and zeros are filled in, the text
spells that value, and so a decimal that is written out is spelled (`spells_write`). -/
namespace Calculator.Decimal
open Literal

/-- The value of digits of which the first counts `10 ^ leading`. -/
def valueFrom (digits : List Char) (leading : Int) : ℚ :=
  Nat.ofDigitChars 10 digits 0 * 10 ^ (leading + 1 - digits.length)

/-- Zeros at the end of the coefficient can go into the exponent. -/
theorem value_pow_mul (c n : Nat) (exponent : Int) :
    value ⟨10 ^ n * c, exponent⟩ = value ⟨c, exponent + n⟩ := by
  rw [value, value, zpow_add₀ (by norm_num), zpow_natCast]
  push_cast
  ring

theorem ofDigitChars_append_zeros (digits : List Char) (n : Nat) :
    Nat.ofDigitChars 10 (digits ++ List.replicate n '0') 0 =
      10 ^ n * Nat.ofDigitChars 10 digits 0 := by
  rw [Nat.ofDigitChars_append, Nat.ofDigitChars_replicate_zero]

/-! ### Digits of a decimal -/

theorem toDigits_eq_append_zeros (d : Decimal) :
    ∃ n, Nat.toDigits 10 d.coefficient = d.significantDigits ++ List.replicate n '0' := by
  let zeros := (Nat.toDigits 10 d.coefficient).reverse.takeWhile (· == '0')
  have hzeros : zeros = List.replicate zeros.length '0' :=
    List.eq_replicate_of_mem fun c hc => by simpa using List.mem_takeWhile_imp hc
  refine ⟨zeros.length, ?_⟩
  rw [← List.reverse_replicate, ← hzeros, significantDigits, ← List.reverse_append,
    List.takeWhile_append_dropWhile, List.reverse_reverse]

theorem areDigits_significantDigits (d : Decimal) : AreDigits d.significantDigits := by
  obtain ⟨n, hn⟩ := d.toDigits_eq_append_zeros
  intro c hc
  apply areDigits_toDigits d.coefficient
  rw [hn]
  exact List.mem_append_left _ hc

/-- The coefficient and the places of its first digit, by the digits that are left. -/
theorem exists_zeros (d : Decimal) : ∃ n,
    d.coefficient = 10 ^ n * Nat.ofDigitChars 10 d.significantDigits 0 ∧
      (Nat.toDigits 10 d.coefficient).length = d.significantDigits.length + n := by
  obtain ⟨n, hn⟩ := d.toDigits_eq_append_zeros
  refine ⟨n, ?_, ?_⟩
  · rw [← ofDigitChars_append_zeros, ← hn, Nat.ofDigitChars_ten_toDigits]
  · rw [hn, List.length_append, List.length_replicate]

theorem significantDigits_ne_nil {d : Decimal} (h : d.coefficient ≠ 0) :
    d.significantDigits ≠ [] := by
  obtain ⟨n, hcoefficient, -⟩ := d.exists_zeros
  intro hnil
  rw [hnil, Nat.ofDigitChars_nil, Nat.mul_zero] at hcoefficient
  exact h hcoefficient

theorem valueFrom_significantDigits {d : Decimal} (h : d.coefficient ≠ 0) :
    valueFrom d.significantDigits d.leadingExponent = d.value := by
  obtain ⟨n, hcoefficient, hlength⟩ := d.exists_zeros
  have hpos := List.length_pos_iff.2 (significantDigits_ne_nil h)
  have hexponent : d.leadingExponent + 1 - d.significantDigits.length = d.exponent + n := by
    rw [leadingExponent, hlength]
    omega
  have hvalue := value_pow_mul (Nat.ofDigitChars 10 d.significantDigits 0) n d.exponent
  rw [← hcoefficient] at hvalue
  rw [valueFrom, hexponent]
  exact hvalue.symm

/-! ### Texts -/

/-- A literal has the value of the digits if it shows them with zeros filled in that count for
the exponent alone. -/
theorem value_eq_valueFrom {whole fraction digits : List Char} {exponent leading : Int} (n : Nat)
    (hdigits : Nat.ofDigitChars 10 (whole ++ fraction) 0 = 10 ^ n * Nat.ofDigitChars 10 digits 0)
    (hexponent : exponent - fraction.length + n = leading + 1 - digits.length) :
    (toDecimal ⟨whole, fraction, exponent⟩).value = valueFrom digits leading := by
  rw [toDecimal, hdigits, value_pow_mul, valueFrom, ← hexponent]
  rfl

theorem positional_eq (digits : List Char) (e : Nat) : positional digits e =
    (digits.take (e + 1)).rightpad (e + 1) '0' ++
      pointed (if digits.drop (e + 1) = [] then ['0'] else digits.drop (e + 1)) := by
  rw [pointed, if_neg]
  · rfl
  · split
    · exact List.cons_ne_nil _ _
    · assumption

theorem positional_negSucc_eq {digits : List Char} (hne : digits ≠ []) (e : Nat) :
    positional digits (.negSucc e) = ['0'] ++ pointed (List.replicate e '0' ++ digits) := by
  rw [pointed, if_neg (by simp [hne])]
  rfl

/-- Digits that end before the point are filled up with zeros. -/
theorem rightpad_take_of_le {digits : List Char} {e : Nat} (h : digits.length ≤ e + 1) :
    (digits.take (e + 1)).rightpad (e + 1) '0' ++ ['0'] =
      digits ++ List.replicate (e + 2 - digits.length) '0' := by
  have hsucc : e + 2 - digits.length = (e + 1 - digits.length) + 1 := by omega
  rw [List.take_of_length_le h, List.rightpad, List.append_assoc, hsucc, List.replicate_succ']

theorem rightpad_take_of_not_le {digits : List Char} {e : Nat} (h : ¬ digits.length ≤ e + 1) :
    (digits.take (e + 1)).rightpad (e + 1) '0' = digits.take (e + 1) := by
  have hlength : (digits.take (e + 1)).length = e + 1 :=
    List.length_take_of_le (Nat.le_of_not_le h)
  rw [List.rightpad, hlength, Nat.sub_self, List.replicate_zero, List.append_nil]

theorem spells_positional_nat {digits : List Char} (hdigits : AreDigits digits) (hne : digits ≠ [])
    (e : Nat) : Spells (positional digits e) (valueFrom digits e) := by
  have hwhole : AreDigits ((digits.take (e + 1)).rightpad (e + 1) '0') :=
    List.forall_mem_append.2
      ⟨fun c hc => hdigits c (List.mem_of_mem_take hc), areDigits_replicate_zero _⟩
  have hsome : (digits.take (e + 1)).rightpad (e + 1) '0' ≠ [] := by
    simp [List.rightpad, hne]
  rw [positional_eq]
  by_cases hshort : digits.length ≤ e + 1
  · rw [if_pos (List.drop_eq_nil_of_le hshort), ← value_eq_valueFrom (e + 2 - digits.length)]
    · exact .plain hwhole hsome (areDigits_replicate_zero 1)
    · rw [rightpad_take_of_le hshort, ofDigitChars_append_zeros]
    · rw [List.length_singleton]
      omega
  · have hlong : digits.drop (e + 1) ≠ [] := by simpa using hshort
    rw [if_neg hlong, ← value_eq_valueFrom 0]
    · exact .plain hwhole hsome fun c hc => hdigits c (List.mem_of_mem_drop hc)
    · rw [rightpad_take_of_not_le hshort, List.take_append_drop, Nat.pow_zero, Nat.one_mul]
    · rw [List.length_drop]
      omega

theorem spells_positional {digits : List Char} (hdigits : AreDigits digits) (hne : digits ≠ [])
    (leading : Int) : Spells (positional digits leading) (valueFrom digits leading) := by
  cases leading with
  | ofNat e => exact spells_positional_nat hdigits hne e
  | negSucc e =>
    have hfraction : AreDigits (List.replicate e '0' ++ digits) :=
      List.forall_mem_append.2 ⟨areDigits_replicate_zero e, hdigits⟩
    rw [positional_negSucc_eq hne, ← value_eq_valueFrom 0]
    · exact .plain (areDigits_replicate_zero 1) (List.cons_ne_nil _ _) hfraction
    · show Nat.ofDigitChars 10 (List.replicate (e + 1) '0' ++ digits) 0 = _
      rw [Nat.ofDigitChars_append, Nat.ofDigitChars_replicate_zero]
      simp
    · rw [List.length_append, List.length_replicate]
      omega

theorem spells_scientific {digits : List Char} (hdigits : AreDigits digits) (hne : digits ≠ [])
    (exponentDigits : Nat) (leading : Int) :
    Spells (scientific exponentDigits digits leading) (valueFrom digits leading) := by
  have hpos := List.length_pos_iff.2 hne
  have hwhole : AreDigits (digits.take 1) := fun c hc => hdigits c (List.mem_of_mem_take hc)
  have hfraction : AreDigits (digits.drop 1) := fun c hc => hdigits c (List.mem_of_mem_drop hc)
  have hexponent : AreDigits ((Nat.toDigits 10 leading.natAbs).leftpad exponentDigits '0') :=
    List.forall_mem_append.2 ⟨areDigits_replicate_zero _, areDigits_toDigits _⟩
  have hvalue : (toDecimal ⟨digits.take 1, digits.drop 1, leading⟩).value =
      valueFrom digits leading := by
    apply value_eq_valueFrom 0
    · rw [List.take_append_drop, Nat.pow_zero, Nat.one_mul]
    · rw [List.length_drop]
      omega
  rw [← hvalue]
  exact .scientific hwhole (by simp [hne]) hfraction hexponent
    (by simp [List.leftpad, Nat.toDigits_ne_nil]) (by simp [List.leftpad, Nat.ofDigitChars_append])

/-- **A decimal that is written out is spelled.** -/
theorem spells_write (layout : Layout) {d : Decimal} (h : d.coefficient ≠ 0) :
    Spells (layout.write d) d.value := by
  have hdigits := d.areDigits_significantDigits
  have hne := significantDigits_ne_nil h
  rw [← valueFrom_significantDigits h, Layout.write]
  split
  · exact spells_positional hdigits hne _
  · exact spells_scientific hdigits hne _ _

end Calculator.Decimal
