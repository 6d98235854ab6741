import Calculator.Numeral
import Calculator.Proofs.Decimal.Layout
import Calculator.Proofs.Decimal.Shortest
import Mathlib.Data.List.DropRight

/-! The text of a decimal, and the digits in it.

A layout writes a decimal in one of two forms: digits with a point among them, or a digit, a point
and an exponent. Either way the digits are the significant ones, with no zeros but those that say
where the point is (`form_write`), and it takes so many digits to write the value
(`length_significantDigits_le`). -/
namespace Calculator.Decimal
open Literal

/-! ### Significant digits -/

theorem head?_toDigits_ne_zero {n : Nat} (h : n ≠ 0) : (Nat.toDigits 10 n).head? ≠ some '0' := by
  induction n using Nat.strongRecOn with
  | ind n ih =>
    by_cases hlt : n < 10
    · have hdigit : ∀ n < 10, n ≠ 0 → some n.digitChar ≠ some '0' := by decide
      rw [Nat.toDigits_of_lt_base hlt]
      exact hdigit n hlt h
    · have hle := Nat.le_of_not_lt hlt
      have hquotient : n / 10 ≠ 0 := by omega
      rw [Nat.toDigits_of_base_le (by decide) hle,
        List.head?_append_of_ne_nil _ Nat.toDigits_ne_nil]
      exact ih (n / 10) (by omega) hquotient

/-- Digits of which the first and the last count. -/
structure IsSignificand (digits : List Char) : Prop where
  areDigits : AreDigits digits
  ne_nil : digits ≠ []
  head?_ne_zero : digits.head? ≠ some '0'
  getLast?_ne_zero : digits.getLast? ≠ some '0'

theorem isSignificand_significantDigits {d : Decimal} (h : d.coefficient ≠ 0) :
    IsSignificand d.significantDigits where
  areDigits := d.areDigits_significantDigits
  ne_nil := significantDigits_ne_nil h
  head?_ne_zero := by
    obtain ⟨n, hn⟩ := d.toDigits_eq_append_zeros
    have hhead := head?_toDigits_ne_zero h
    rwa [hn, List.head?_append_of_ne_nil _ (significantDigits_ne_nil h)] at hhead
  getLast?_ne_zero hlast := by
    have hnot := List.head?_dropWhile_not (· == '0') (Nat.toDigits 10 d.coefficient).reverse
    rw [significantDigits, List.getLast?_reverse] at hlast
    rw [hlast] at hnot
    exact absurd hnot (by decide)

/-- The last digit tells whether ten divides. -/
theorem IsSignificand.not_ten_dvd {digits : List Char} (h : IsSignificand digits) :
    ¬ 10 ∣ Nat.ofDigitChars 10 digits 0 := by
  have hne := h.ne_nil
  have hlast := h.getLast?_ne_zero
  rw [List.getLast?_eq_some_getLast hne, ne_eq, Option.some_inj] at hlast
  have hdigit := Char.isDigit_iff_toNat.1 (h.areDigits _ (List.getLast_mem hne))
  have hzero : (digits.getLast hne).toNat ≠ '0'.toNat := fun heq => hlast (Char.toNat_inj.1 heq)
  have hbounds : '0'.toNat = 48 ∧ '9'.toNat = 57 := by decide
  rw [← List.dropLast_append_getLast hne, Nat.ofDigitChars_append, Nat.ofDigitChars_cons,
    Nat.ofDigitChars_nil]
  omega

/-- No decimal of fewer digits has the value. -/
theorem length_significantDigits_le {d : Decimal} (h : d.coefficient ≠ 0) {digits : Nat}
    (hdecimal : IsDecimal digits d.value) : d.significantDigits.length ≤ digits := by
  obtain ⟨n, hcoefficient, hlength⟩ := d.exists_zeros
  have hne := significantDigits_ne_nil h
  have hpos := List.length_pos_iff.2 hne
  have hten := (isSignificand_significantDigits h).not_ten_dvd
  generalize Nat.ofDigitChars 10 d.significantDigits 0 = c at hcoefficient hten
  have hlow : 10 ^ (d.significantDigits.length - 1) ≤ c := by
    have hle := pow_length_toDigits_le h
    have hexponent : (Nat.toDigits 10 d.coefficient).length - 1 =
        n + (d.significantDigits.length - 1) := by omega
    rw [hexponent, hcoefficient, pow_add] at hle
    exact Nat.le_of_mul_le_mul_left hle (by positivity)
  have hvalue : d.value = c * 10 ^ (d.exponent + n) := by
    have hsame := value_pow_mul c n d.exponent
    rwa [← hcoefficient] at hsame
  have hnonneg : 0 ≤ d.value := by
    rw [hvalue]
    positivity
  obtain ⟨m, k, hm, hq⟩ := hdecimal.exists_nat hnonneg
  rw [hvalue] at hq
  rcases le_or_gt k (d.exponent + n) with hle | hlt
  · obtain ⟨j, hj⟩ := Int.le.dest hle
    have hsame : (c * 10 ^ j : ℚ) = m := by
      rw [← hj, zpow_add₀ (by decide), zpow_natCast, mul_comm (10 ^ k), ← mul_assoc] at hq
      exact mul_right_cancel₀ (zpow_ne_zero k (by decide)) hq
    have hsame : c * 10 ^ j = m := by exact_mod_cast hsame
    have hlt : 10 ^ (d.significantDigits.length - 1) < 10 ^ digits :=
      calc 10 ^ (d.significantDigits.length - 1)
        _ ≤ c := hlow
        _ ≤ c * 10 ^ j := Nat.le_mul_of_pos_right c (by positivity)
        _ = m := hsame
        _ < 10 ^ digits := hm
    have := (Nat.pow_lt_pow_iff_right (by decide)).1 hlt
    omega
  · -- A coarser grid has only numbers that ten divides.
    obtain ⟨j, hj⟩ := Int.lt.dest hlt
    have hsame : (c : ℚ) = m * 10 ^ (j + 1) := by
      have hbase : (10 : ℚ) ≠ 0 := by decide
      rw [← hj, zpow_add₀ hbase (d.exponent + n), zpow_natCast,
        mul_comm (10 ^ (d.exponent + n) : ℚ), ← mul_assoc] at hq
      exact mul_right_cancel₀ (zpow_ne_zero _ hbase) hq
    have hsame : c = m * 10 ^ (j + 1) := by exact_mod_cast hsame
    refine absurd ⟨m * 10 ^ j, ?_⟩ hten
    rw [hsame, pow_succ]
    ring

/-! ### Digits of a text -/

/-- The digits of a text up to its exponent, from the first that is not zero to the last. -/
def significand (text : List Char) : List Char :=
  (((text.takeWhile (· != 'e')).filter Char.isDigit).dropWhile (· == '0')).rdropWhile (· == '0')

/-- Zeros on either side do not count. -/
theorem IsSignificand.strip_zeros {digits : List Char} (h : IsSignificand digits)
    (before after : Nat) :
    ((List.replicate before '0' ++ (digits ++ List.replicate after '0')).dropWhile
      (· == '0')).rdropWhile (· == '0') = digits := by
  have hzeros (n : Nat) : ∀ c ∈ List.replicate n '0', (c == '0') = true := by
    intro c hc
    simpa using List.eq_of_mem_replicate hc
  have hkeep : (digits ++ List.replicate after '0').dropWhile (· == '0') =
      digits ++ List.replicate after '0' := by
    have hfirst := h.head?_ne_zero
    cases digits with
    | nil => exact absurd rfl h.ne_nil
    | cons c cs => exact List.dropWhile_cons_of_neg (by simpa using hfirst)
  have hself : digits.rdropWhile (· == '0') = digits := by
    refine List.rdropWhile_eq_self_iff.2 fun hne => ?_
    have hlast := h.getLast?_ne_zero
    rw [List.getLast?_eq_some_getLast hne] at hlast
    simpa using hlast
  rw [List.dropWhile_append_of_pos (hzeros before), hkeep, List.rdropWhile, List.reverse_append,
    List.reverse_replicate, List.dropWhile_append_of_pos (hzeros after)]
  exact hself

theorem filter_takeWhile {whole fraction rest : List Char} (hwhole : AreDigits whole)
    (hfraction : AreDigits fraction) (hrest : rest = [] ∨ rest.head? = some 'e') :
    ((whole ++ pointed fraction ++ rest).takeWhile (· != 'e')).filter Char.isDigit =
      whole ++ fraction := by
  have hdigit {c : Char} (hc : c.isDigit = true) : (c != 'e') = true := by
    refine bne_iff_ne.2 fun heq => ?_
    rw [heq] at hc
    contradiction
  have hend : rest.takeWhile (· != 'e') = [] := by
    cases rest with
    | nil => rfl
    | cons c cs => exact List.takeWhile_cons_of_neg (by simpa using hrest)
  have hpointed : ∀ c ∈ pointed fraction, (c != 'e') = true := by
    unfold pointed
    split
    · simp
    · exact List.forall_mem_cons.2 ⟨by decide, fun c hc => hdigit (hfraction c hc)⟩
  have hpoint : (pointed fraction).filter Char.isDigit = fraction := by
    unfold pointed
    split
    · next hnil => rw [hnil, List.filter_nil]
    · exact (List.filter_cons_of_neg (by decide)).trans (List.filter_eq_self.2 hfraction)
  rw [List.append_assoc, List.takeWhile_append_of_pos fun c hc => hdigit (hwhole c hc),
    List.takeWhile_append_of_pos hpointed, hend, List.append_nil, List.filter_append, hpoint,
    List.filter_eq_self.2 hwhole]

theorem IsSignificand.significand_eq {digits whole fraction rest : List Char} {before after : Nat}
    (h : IsSignificand digits) (hwhole : AreDigits whole) (hfraction : AreDigits fraction)
    (hrest : rest = [] ∨ rest.head? = some 'e')
    (heq : whole ++ fraction =
      List.replicate before '0' ++ (digits ++ List.replicate after '0')) :
    significand (whole ++ pointed fraction ++ rest) = digits := by
  rw [significand, filter_takeWhile hwhole hfraction hrest, heq, h.strip_zeros]

/-! ### Forms -/

/-- Digits and a point among them, with one on either side at least. A zero is the first digit only
if no other stands before the point, and the last only if no other comes after it. -/
def IsPositional (text : List Char) : Prop :=
  ∃ whole fraction, text = whole ++ '.' :: fraction ∧
    (AreDigits whole ∧ whole ≠ [] ∧ (whole.head? = some '0' → whole = ['0'])) ∧
    (AreDigits fraction ∧ fraction ≠ [] ∧ (fraction.getLast? = some '0' → fraction = ['0']))

/-- A digit, a point and more digits if there are any, and an exponent with its sign. Neither the
first digit nor the last before the exponent is zero, and the exponent begins with a zero only if
it takes that to have two digits. -/
def IsScientific (text : List Char) (exponent : ℤ) : Prop :=
  ∃ first fraction digits, text = first :: pointed fraction ++
      'e' :: (if exponent < 0 then '-' else '+') :: digits ∧
    (first.isDigit = true ∧ first ≠ '0') ∧
    (AreDigits fraction ∧ fraction.getLast? ≠ some '0') ∧
    AreDigits digits ∧ 2 ≤ digits.length ∧ (digits.head? = some '0' → digits.length = 2) ∧
    Nat.ofDigitChars 10 digits 0 = exponent.natAbs

/-- The digits before the point, where there are some. -/
theorem areDigits_rightpad_take {digits : List Char} (h : AreDigits digits) (n : Nat) :
    AreDigits ((digits.take n).rightpad n '0') :=
  List.forall_mem_append.2 ⟨fun c hc => h c (List.mem_of_mem_take hc), areDigits_replicate_zero _⟩

theorem isPositional_of_pointed {whole fraction : List Char} (hwhole : AreDigits whole)
    (hsome : whole ≠ []) (hfirst : whole.head? = some '0' → whole = ['0'])
    (hfraction : AreDigits fraction) (hrest : fraction ≠ [])
    (hlast : fraction.getLast? = some '0' → fraction = ['0']) :
    IsPositional (whole ++ pointed fraction) := by
  rw [pointed, if_neg hrest]
  exact ⟨whole, fraction, rfl, ⟨hwhole, hsome, hfirst⟩, hfraction, hrest, hlast⟩

theorem IsSignificand.positional_nat {digits : List Char} (h : IsSignificand digits) (e : Nat) :
    IsPositional (positional digits e) ∧ significand (positional digits e) = digits := by
  have hwhole := areDigits_rightpad_take h.areDigits (e + 1)
  have hsome : (digits.take (e + 1)).rightpad (e + 1) '0' ≠ [] := by
    simp [List.rightpad, h.ne_nil]
  have hfirst : ((digits.take (e + 1)).rightpad (e + 1) '0').head? ≠ some '0' := by
    have hne : digits.take (e + 1) ≠ [] := by simp [h.ne_nil]
    rw [List.rightpad, List.head?_append_of_ne_nil _ hne, List.head?_take,
      if_neg (Nat.succ_ne_zero e)]
    exact h.head?_ne_zero
  rw [positional_eq]
  by_cases hshort : digits.length ≤ e + 1
  · have heq : (digits.take (e + 1)).rightpad (e + 1) '0' ++ ['0'] =
        List.replicate 0 '0' ++ (digits ++ List.replicate (e + 2 - digits.length) '0') :=
      rightpad_take_of_le hshort
    have hdigits := h.significand_eq hwhole (areDigits_replicate_zero 1) (.inl rfl) heq
    rw [List.append_nil] at hdigits
    rw [if_pos (List.drop_eq_nil_of_le hshort)]
    exact ⟨isPositional_of_pointed hwhole hsome (fun hzero => absurd hzero hfirst)
      (areDigits_replicate_zero 1) (List.cons_ne_nil _ _) fun _ => rfl, hdigits⟩
  · have hlong : digits.drop (e + 1) ≠ [] := by simpa using hshort
    have hfraction : AreDigits (digits.drop (e + 1)) :=
      fun c hc => h.areDigits c (List.mem_of_mem_drop hc)
    have hlast : (digits.drop (e + 1)).getLast? ≠ some '0' := by
      rw [List.getLast?_drop, if_neg hshort]
      exact h.getLast?_ne_zero
    have heq : (digits.take (e + 1)).rightpad (e + 1) '0' ++ digits.drop (e + 1) =
        List.replicate 0 '0' ++ (digits ++ List.replicate 0 '0') := by
      rw [rightpad_take_of_not_le hshort, List.take_append_drop]
      simp
    have hdigits := h.significand_eq hwhole hfraction (.inl rfl) heq
    rw [List.append_nil] at hdigits
    rw [if_neg hlong]
    exact ⟨isPositional_of_pointed hwhole hsome (fun hzero => absurd hzero hfirst) hfraction hlong
      fun hzero => absurd hzero hlast, hdigits⟩

theorem IsSignificand.positional {digits : List Char} (h : IsSignificand digits) (leading : ℤ) :
    IsPositional (positional digits leading) ∧
      significand (positional digits leading) = digits := by
  cases leading with
  | ofNat e => exact h.positional_nat e
  | negSucc e =>
    have hone : AreDigits ['0'] := areDigits_replicate_zero 1
    have hfraction : AreDigits (List.replicate e '0' ++ digits) :=
      List.forall_mem_append.2 ⟨areDigits_replicate_zero e, h.areDigits⟩
    have hlast : (List.replicate e '0' ++ digits).getLast? ≠ some '0' := by
      rw [List.getLast?_append_of_ne_nil _ h.ne_nil]
      exact h.getLast?_ne_zero
    have heq : ['0'] ++ (List.replicate e '0' ++ digits) =
        List.replicate (e + 1) '0' ++ (digits ++ List.replicate 0 '0') := by
      rw [List.replicate_zero, List.append_nil]
      rfl
    have hdigits := h.significand_eq hone hfraction (.inl rfl) heq
    rw [List.append_nil] at hdigits
    rw [positional_negSucc_eq h.ne_nil]
    exact ⟨isPositional_of_pointed hone (List.cons_ne_nil _ _) (fun _ => rfl) hfraction
      (by simp [h.ne_nil]) fun hzero => absurd hzero hlast, hdigits⟩

/-- Zeros are filled in up to a length and not beyond. -/
theorem length_leftpad_of_head? {digits : List Char} {n : Nat} (hn : 1 ≤ n)
    (h : digits = ['0'] ∨ digits.head? ≠ some '0')
    (hzero : (digits.leftpad n '0').head? = some '0') : (digits.leftpad n '0').length = n := by
  rw [List.length_leftpad]
  by_cases hle : digits.length ≤ n
  · exact Nat.max_eq_left hle
  · rw [List.leftpad, Nat.sub_eq_zero_of_le (Nat.le_of_not_le hle)] at hzero
    rcases h with rfl | hfirst
    · exact absurd hn hle
    · exact absurd hzero hfirst

theorem IsSignificand.scientific {digits : List Char} (h : IsSignificand digits) (leading : ℤ) :
    IsScientific (scientific 2 digits leading) leading ∧
      significand (scientific 2 digits leading) = digits := by
  have hsignificand := h
  obtain ⟨hdigits, hne, hfirst, hlast⟩ := h
  cases digits with
  | nil => contradiction
  | cons first fraction =>
    obtain ⟨hdigit, hfraction⟩ := List.forall_mem_cons.1 hdigits
    have hexponent : AreDigits ((Nat.toDigits 10 leading.natAbs).leftpad 2 '0') :=
      List.forall_mem_append.2 ⟨areDigits_replicate_zero _, areDigits_toDigits _⟩
    have hvalue : Nat.ofDigitChars 10 ((Nat.toDigits 10 leading.natAbs).leftpad 2 '0') 0 =
        leading.natAbs := by
      rw [List.leftpad, Nat.ofDigitChars_append, Nat.ofDigitChars_replicate_zero, Nat.mul_zero,
        Nat.ofDigitChars_ten_toDigits]
    have hclean : Nat.toDigits 10 leading.natAbs = ['0'] ∨
        (Nat.toDigits 10 leading.natAbs).head? ≠ some '0' := by
      by_cases hzero : leading.natAbs = 0
      · rw [hzero]
        exact .inl rfl
      · exact .inr (head?_toDigits_ne_zero hzero)
    have hend : fraction.getLast? ≠ some '0' := by
      by_cases hnil : fraction = []
      · rw [hnil]
        simp
      · rwa [← List.singleton_append, List.getLast?_append_of_ne_nil _ hnil] at hlast
    have hone : AreDigits [first] := List.forall_mem_singleton.2 hdigit
    have heq : [first] ++ fraction =
        List.replicate 0 '0' ++ (first :: fraction ++ List.replicate 0 '0') := by
      simp
    refine ⟨⟨first, fraction, _, rfl, ⟨hdigit, by simpa using hfirst⟩, ⟨hfraction, hend⟩, hexponent,
      ?_, length_leftpad_of_head? (by decide) hclean, hvalue⟩,
      hsignificand.significand_eq hone hfraction (.inr rfl) heq⟩
    rw [List.length_leftpad]
    exact Nat.le_max_left ..

/-- Only one of the forms has an exponent. -/
theorem IsPositional.not_isScientific {text : List Char} (h : IsPositional text) (exponent : ℤ) :
    ¬ IsScientific text exponent := by
  rintro ⟨first, fraction', digits, rfl, -⟩
  obtain ⟨whole, fraction, heq, ⟨hwhole, -⟩, hfraction, -⟩ := h
  have hmem : 'e' ∈ whole ++ '.' :: fraction := by
    rw [← heq]
    simp
  rcases List.mem_append.1 hmem with hmem | hmem
  · exact absurd (hwhole 'e' hmem) (by decide)
  · rcases List.mem_cons.1 hmem with hpoint | hmem
    · exact absurd hpoint (by decide)
    · exact absurd (hfraction 'e' hmem) (by decide)

/-- **The digits written are the significant ones**, and the form is told by the power of ten that
the first of them counts. -/
theorem form_write {d : Decimal} (h : d.coefficient ≠ 0) :
    significand (Numeral.layout.write d) = d.significantDigits ∧
      (IsPositional (Numeral.layout.write d) ↔ -4 ≤ d.leadingExponent ∧ d.leadingExponent < 16) ∧
      (IsScientific (Numeral.layout.write d) d.leadingExponent ↔
        ¬ (-4 ≤ d.leadingExponent ∧ d.leadingExponent < 16)) := by
  have hsignificand := isSignificand_significantDigits h
  rw [Layout.write]
  by_cases hrange : -4 ≤ d.leadingExponent ∧ d.leadingExponent < 16
  · obtain ⟨hpositional, hdigits⟩ := hsignificand.positional d.leadingExponent
    have hwrite : Numeral.layout.leastPositional ≤ d.leadingExponent ∧
        d.leadingExponent < Numeral.layout.leastScientific := hrange
    rw [if_pos hwrite]
    exact ⟨hdigits, iff_of_true hpositional hrange,
      iff_of_false (hpositional.not_isScientific _) (not_not.2 hrange)⟩
  · obtain ⟨hscientific, hdigits⟩ := hsignificand.scientific d.leadingExponent
    have hwrite : ¬ (Numeral.layout.leastPositional ≤ d.leadingExponent ∧
        d.leadingExponent < Numeral.layout.leastScientific) := hrange
    rw [if_neg hwrite]
    have hnot := fun hpositional : IsPositional _ => hpositional.not_isScientific _ hscientific
    exact ⟨hdigits, iff_of_false hnot hrange, iff_of_true hscientific hrange⟩

end Calculator.Decimal
