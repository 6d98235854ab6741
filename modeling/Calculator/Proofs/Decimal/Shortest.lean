import Calculator.Proofs.Decimal.Value

/-! The shortest decimal has the fewest digits.

The search tries one digit, two digits and so on, and for each of these a grid on which the
magnitude has so many digits. A decimal with no more digits is a point of that grid, or it is
smaller than all numbers with as many digits before the point as the magnitude. Either way a
point of the grid next to the magnitude lies between the two (`le_grid_or_grid_le`), and what
lies between two numbers that round to one double rounds to it (`IsNearest.between`). So if
neither point next to the magnitude reads back, no decimal with so few digits does
(`not_isNearest_of_multiple?_eq_none`). -/
namespace Calculator

/-- The numbers that round to one double have no gaps. -/
theorem Binary64.IsNearest.between {rank : Nat} {u v w : ℚ} (hu : IsNearest rank u)
    (hw : IsNearest rank w) (huv : u ≤ v) (hvw : v ≤ w) : IsNearest rank v where
  le_infinityRank := hu.le_infinityRank
  lower := by linarith [hu.lower]
  even_of_eq_lower heq := hu.even_of_eq_lower (le_antisymm hu.lower (by linarith))
  upper hrank := by linarith [hw.upper hrank]
  even_of_eq_upper hrank heq :=
    hw.even_of_eq_upper hrank (le_antisymm (hw.upper hrank) (by linarith))

namespace Decimal
open Binary64

/-- Numbers that so many digits are enough for, before or after a point and perhaps with zeros. -/
def IsDecimal (digits : Nat) (q : ℚ) : Prop :=
  ∃ m k : ℤ, |m| < 10 ^ digits ∧ q = m * 10 ^ k

theorem IsDecimal.mono {digits digits' : Nat} {q : ℚ} (h : IsDecimal digits q)
    (hle : digits ≤ digits') : IsDecimal digits' q := by
  obtain ⟨m, k, hm, hq⟩ := h
  exact ⟨m, k, lt_of_lt_of_le hm (pow_le_pow_right₀ (by decide) hle), hq⟩

theorem IsDecimal.neg {digits : Nat} {q : ℚ} (h : IsDecimal digits q) : IsDecimal digits (-q) := by
  obtain ⟨m, k, hm, hq⟩ := h
  exact ⟨-m, k, by rwa [abs_neg], by rw [hq, Int.cast_neg, neg_mul]⟩

/-- A number from zero up has digits without a sign. -/
theorem IsDecimal.exists_nat {digits : Nat} {q : ℚ} (h : IsDecimal digits q) (hq : 0 ≤ q) :
    ∃ (m : Nat) (k : ℤ), m < 10 ^ digits ∧ q = m * 10 ^ k := by
  obtain ⟨m, k, hm, rfl⟩ := h
  have hpow : (0 : ℚ) < 10 ^ k := by positivity
  have hnonneg : 0 ≤ m := by exact_mod_cast nonneg_of_mul_nonneg_left hq hpow
  lift m to Nat using hnonneg
  rw [Nat.abs_cast] at hm
  exact ⟨m, k, by exact_mod_cast hm, by rw [Int.cast_natCast]⟩

/-- A coefficient that is a power of ten is one digit. -/
theorem isDecimal_of_le {c digits : Nat} (h : c ≤ 10 ^ (digits + 1)) (exponent : ℤ) :
    IsDecimal (digits + 1) (value ⟨c, exponent⟩) := by
  rcases Nat.lt_or_eq_of_le h with hlt | rfl
  · refine ⟨c, exponent, ?_, by rw [Int.cast_natCast]; rfl⟩
    rw [Nat.abs_cast]
    exact_mod_cast hlt
  · refine ⟨1, digits + 1 + exponent, ?_, ?_⟩
    · rw [abs_one]
      exact one_lt_pow₀ (by decide) (Nat.succ_ne_zero digits)
    · rw [value, zpow_add₀ (by decide), Int.cast_one, one_mul]
      norm_cast

/-! ### Lengths -/

theorem lt_pow_length_toDigits (c : Nat) : c < 10 ^ (Nat.toDigits 10 c).length :=
  (Nat.length_toDigits_le_iff (by decide) Nat.length_toDigits_pos).1 (Nat.le_refl _)

theorem pow_length_toDigits_le {c : Nat} (hc : c ≠ 0) :
    10 ^ ((Nat.toDigits 10 c).length - 1) ≤ c := by
  have hpos : 0 < (Nat.toDigits 10 c).length := Nat.length_toDigits_pos
  by_contra hlt
  have hlt := Nat.lt_of_not_le hlt
  by_cases hone : (Nat.toDigits 10 c).length - 1 = 0
  · rw [hone] at hlt
    omega
  · have := (Nat.length_toDigits_le_iff (by decide) (Nat.pos_of_ne_zero hone)).2 hlt
    omega

/-- The first digit is the one that counts the leading power of ten. -/
theorem value_bounds {d : Decimal} (h : d.coefficient ≠ 0) :
    10 ^ d.leadingExponent ≤ d.value ∧ d.value < 10 ^ (d.leadingExponent + 1) := by
  have hpos : 0 < (Nat.toDigits 10 d.coefficient).length := Nat.length_toDigits_pos
  have hpow : (0 : ℚ) < 10 ^ d.exponent := by positivity
  have hnext : d.leadingExponent + 1 = ((Nat.toDigits 10 d.coefficient).length : ℤ) + d.exponent := by
    rw [leadingExponent]
    omega
  rw [hnext, leadingExponent, add_comm d.exponent, value, zpow_add₀ (by decide),
    zpow_add₀ (by decide), zpow_natCast, zpow_natCast]
  constructor
  · exact mul_le_mul_of_nonneg_right (by exact_mod_cast pow_length_toDigits_le h) hpow.le
  · exact mul_lt_mul_of_pos_right (by exact_mod_cast lt_pow_length_toDigits d.coefficient) hpow

theorem exactUnits_ne_zero {rank : Nat} (h : rank ≠ 0) : exactUnits rank ≠ 0 := by
  rw [exactUnits_eq]
  exact (Nat.mul_pos (units_pos h) tenthsPerUnit_pos).ne'

/-! ### Grids -/

/-- A decimal with no more digits than `points` is not strictly between a point of the grid and the
next one. -/
theorem le_grid_or_grid_le {m i points : Nat} {k place : ℤ} (hm : m < 10 ^ (i + 1))
    (hpoints : 10 ^ i ≤ points) :
    (m * 10 ^ k : ℚ) ≤ points * 10 ^ place ∨
      ((points + 1 : Nat) * 10 ^ place : ℚ) ≤ m * 10 ^ k := by
  have hplace : (0 : ℚ) ≤ 10 ^ place := by positivity
  by_cases hk : place ≤ k
  · -- It is a point of the grid.
    obtain ⟨j, rfl⟩ := Int.le.dest hk
    have hgrid : (m * 10 ^ (place + j) : ℚ) = (m * 10 ^ j : Nat) * 10 ^ place := by
      rw [zpow_add₀ (by decide), zpow_natCast]
      push_cast
      ring
    rw [hgrid]
    rcases Nat.lt_or_ge points (m * 10 ^ j) with hlt | hge
    · exact .inr (mul_le_mul_of_nonneg_right (by exact_mod_cast hlt) hplace)
    · exact .inl (mul_le_mul_of_nonneg_right (by exact_mod_cast hge) hplace)
  · left
    calc (m * 10 ^ k : ℚ)
      _ ≤ 10 ^ (i + 1) * 10 ^ k :=
        mul_le_mul_of_nonneg_right (by exact_mod_cast hm.le) (by positivity)
      _ = 10 ^ (i + 1 + k : ℤ) := by
        rw [zpow_add₀ (by decide)]
        norm_cast
      _ ≤ 10 ^ (i + place : ℤ) := zpow_le_zpow_right₀ (by decide) (by omega)
      _ = 10 ^ i * 10 ^ place := by rw [zpow_add₀ (by decide), zpow_natCast]
      _ ≤ points * 10 ^ place := mul_le_mul_of_nonneg_right (by exact_mod_cast hpoints) hplace

theorem not_readsBack_of_multiple?_eq_none {rank step : Nat} (h : multiple? rank step = none) :
    ¬ ReadsBack rank (exactUnits rank / step * step) ∧
      ¬ ReadsBack rank ((exactUnits rank / step + 1) * step) := by
  simp only [multiple?] at h
  split at h
  · contradiction
  · next hdown =>
    split at h
    · contradiction
    · next hup => exact ⟨fun hreads => hdown ⟨hreads, .inr hup⟩, hup⟩

theorem le_of_multiple? {rank step n : Nat} (h : multiple? rank step = some n) :
    n ≤ exactUnits rank / step + 1 := by
  simp only [multiple?] at h
  split at h
  · cases h
    exact Nat.le_succ _
  · split at h
    · cases h
      exact Nat.le_refl _
    · contradiction

theorem inUnits_exact (rank : Nat) :
    inUnits ⟨exactUnits rank, -1074⟩ = (exactUnits rank : ℚ) / tenthsPerUnit := by
  have hplace := inUnits_atPlace (exactUnits rank) 0
  have hone : powerOfTen 0 = 1 := rfl
  rw [hone, Nat.mul_one] at hplace
  exact hplace

theorem inUnits_le_inUnits {d d' : Decimal} (h : d.value ≤ d'.value) : d.inUnits ≤ d'.inUnits :=
  mul_le_mul_of_nonneg_right h (Nat.cast_nonneg _)

/-- **No decimal with so few digits reads back if neither point of the grid does.** -/
theorem not_isNearest_of_multiple?_eq_none {rank place i : Nat} (hrank : rank < infinityRank)
    (hne : rank ≠ 0) (hlength : exactLength rank = place + (i + 1))
    (h : multiple? rank (powerOfTen place) = none) {m : Nat} (hm : m < 10 ^ (i + 1)) (k : ℤ) :
    ¬ IsNearest rank (inUnits ⟨m, k⟩) := by
  intro hnear
  obtain ⟨hdown, hup⟩ := not_readsBack_of_multiple?_eq_none h
  have hstep := powerOfTen_pos place
  have hself := isNearest_exact hrank
  have htenths : (0 : ℚ) < tenthsPerUnit := by exact_mod_cast tenthsPerUnit_pos
  have hpoints : 10 ^ i ≤ exactUnits rank / powerOfTen place := by
    have hle := pow_length_toDigits_le (exactUnits_ne_zero hne)
    have hexponent : (Nat.toDigits 10 (exactUnits rank)).length - 1 = i + place := by
      rw [exactLength] at hlength
      omega
    rw [hexponent, pow_add] at hle
    exact (Nat.le_div_iff_mul_le hstep).2 hle
  rw [readsBack_iff_isNearest hrank, ← inUnits_atPlace] at hdown hup
  rcases @le_grid_or_grid_le m i _ k (place - 1074) hm hpoints with hle | hge
  · refine hdown (hnear.between hself (inUnits_le_inUnits hle) ?_)
    rw [inUnits_atPlace, inUnits_exact, div_le_div_iff_of_pos_right htenths]
    exact_mod_cast Nat.div_mul_le_self _ _
  · refine hup (hself.between hnear ?_ (inUnits_le_inUnits hge))
    rw [inUnits_atPlace, inUnits_exact, div_le_div_iff_of_pos_right htenths]
    exact_mod_cast ((Nat.div_lt_iff_lt_mul hstep).1 (Nat.lt_succ_self _)).le

/-! ### The search -/

theorem findSome?_range_eq_some {α : Type} {f : Nat → Option α} {n : Nat} {a : α}
    (h : (List.range n).findSome? f = some a) :
    ∃ i < n, f i = some a ∧ ∀ j < i, f j = none := by
  induction n with
  | zero => contradiction
  | succ n ih =>
    rw [List.range_succ, List.findSome?_append] at h
    cases hfind : (List.range n).findSome? f with
    | some b =>
      rw [hfind] at h
      obtain ⟨i, hi, hrest⟩ := ih (hfind.trans h)
      exact ⟨i, Nat.lt_succ_of_lt hi, hrest⟩
    | none =>
      rw [hfind] at h
      refine ⟨n, Nat.lt_succ_self n, by simpa using h, fun j hj => ?_⟩
      exact List.findSome?_eq_none_iff.1 hfind j (List.mem_range.2 hj)

/-- The search ends on the first grid of which a point reads back. -/
theorem exists_multiple {rank : Nat} (hrank : rank < infinityRank) (hne : rank ≠ 0) :
    ∃ i n, i < exactLength rank ∧
      shortest rank = ⟨n, (exactLength rank - 1 - i : Nat) - 1074⟩ ∧
      multiple? rank (powerOfTen (exactLength rank - 1 - i)) = some n ∧
      ∀ j < i, multiple? rank (powerOfTen (exactLength rank - 1 - j)) = none := by
  have hpos : 0 < exactLength rank := Nat.length_toDigits_pos
  rw [shortest, if_neg hne]
  dsimp only
  cases hfind : (List.range (exactLength rank)).findSome?
      fun i => atPlace? rank (exactLength rank - 1 - i) with
  | none =>
    -- On the last grid the magnitude is a point itself.
    have hlast := List.findSome?_eq_none_iff.1 hfind (exactLength rank - 1)
      (List.mem_range.2 (Nat.sub_lt hpos Nat.one_pos))
    rw [Nat.sub_self, atPlace?, Option.map_eq_none_iff] at hlast
    obtain ⟨hdown, -⟩ := not_readsBack_of_multiple?_eq_none hlast
    have hone : powerOfTen 0 = 1 := rfl
    rw [hone, Nat.div_one, Nat.mul_one, readsBack_iff_isNearest hrank, ← inUnits_exact] at hdown
    exact absurd (isNearest_exact hrank) hdown
  | some d =>
    obtain ⟨i, hi, hplace, hnone⟩ := findSome?_range_eq_some hfind
    simp only [atPlace?, Option.map_eq_some_iff] at hplace
    obtain ⟨n, hn, rfl⟩ := hplace
    exact ⟨i, n, hi, rfl, hn, fun j hj => Option.map_eq_none_iff.1 (hnone j hj)⟩

/-- **No decimal of fewer digits rounds to the double.** -/
theorem isDecimal_shortest {rank digits : Nat} {q : ℚ} (hrank : rank < infinityRank) (hne : rank ≠ 0)
    (hq : 0 ≤ q) (hdecimal : IsDecimal digits q) (hnear : IsNearest rank (q * unitsPerOne)) :
    IsDecimal digits (shortest rank).value := by
  obtain ⟨i, n, hi, hshortest, hn, hnone⟩ := exists_multiple hrank hne
  obtain ⟨m, k, hm, rfl⟩ := hdecimal.exists_nat hq
  have hfew : i < digits := by
    by_contra hle
    cases i with
    | zero =>
      have hzero : m = 0 := by
        rw [Nat.eq_zero_of_not_pos hle] at hm
        exact Nat.lt_one_iff.1 hm
      rw [hzero, Nat.cast_zero, zero_mul, zero_mul] at hnear
      exact hne (hnear.unique (isNearest_zero_iff.2 ⟨le_rfl, by norm_num⟩))
    | succ i =>
      have hlength : exactLength rank = exactLength rank - 1 - i + (i + 1) := by omega
      exact not_isNearest_of_multiple?_eq_none hrank hne hlength (hnone i (Nat.lt_succ_self i))
        (lt_of_lt_of_le hm (Nat.pow_le_pow_right (by decide) (Nat.not_lt.1 hle))) k hnear
  refine IsDecimal.mono ?_ (Nat.succ_le_of_lt hfew)
  have hbound : n ≤ 10 ^ (i + 1) := by
    have hlt := lt_pow_length_toDigits (exactUnits rank)
    have hexponent : (Nat.toDigits 10 (exactUnits rank)).length =
        exactLength rank - 1 - i + (i + 1) := by
      rw [exactLength] at hi ⊢
      omega
    rw [hexponent, pow_add] at hlt
    exact le_trans (le_of_multiple? hn) (Nat.div_lt_of_lt_mul hlt)
  rw [hshortest]
  exact isDecimal_of_le hbound _

end Decimal
end Calculator
