import Calculator.Decimal.Shortest
import Calculator.Proofs.Binary64.Nearest
import Mathlib.Algebra.Order.Field.Power

/-! The value of a decimal and the double it rounds to.

`rank` is the nearest rank for decimals of any size (`isNearest_rank`): where it cuts
a computation short, the value is past the last midpoint or before the first. So
decimals of one value round alike, and a decimal that reads back as a double, as the
shortest one does, rounds to it (`rank_shortest`). -/
namespace Calculator.Decimal
open Binary64

def value (d : Decimal) : ℚ := d.coefficient * 10 ^ d.exponent

/-- The value in units of a double's magnitude. -/
def inUnits (d : Decimal) : ℚ := d.value * unitsPerOne

theorem inUnits_nonneg (d : Decimal) : 0 ≤ d.inUnits := by
  rw [inUnits, value]
  positivity

theorem inUnits_ofNat (c k : Nat) :
    inUnits ⟨c, .ofNat k⟩ = (c * powerOfTen k * unitsPerOne : Nat) := by
  have hpow : (powerOfTen k : ℚ) = 10 ^ k := Nat.cast_pow 10 k
  rw [inUnits, value, Nat.cast_mul, Nat.cast_mul, hpow, Int.ofNat_eq_natCast, zpow_natCast]

theorem inUnits_negSucc (c k : Nat) :
    inUnits ⟨c, .negSucc k⟩ = (c * unitsPerOne : Nat) / (powerOfTen (k + 1) : Nat) := by
  have hpow : (powerOfTen (k + 1) : ℚ) = 10 ^ (k + 1) := Nat.cast_pow 10 (k + 1)
  rw [inUnits, value, Nat.cast_mul, hpow, zpow_negSucc]
  ring

theorem powerOfTen_pos (k : Nat) : 0 < powerOfTen k := Nat.pow_pos (by decide)

theorem powerOfTen_mono {j k : Nat} (h : j ≤ k) : powerOfTen j ≤ powerOfTen k :=
  Nat.pow_le_pow_right (by decide) h

/-! ### The cut-offs -/

/-- The magnitude after the largest finite one is `2 ^ 1024`. -/
theorem units_infinityRank : units infinityRank = (1 <<< 1024) * unitsPerOne := by decide +kernel

theorem units_infinityRank_le_inUnits {c k : Nat} (hc : c ≠ 0) (hk : 309 ≤ k) :
    (units infinityRank : ℚ) ≤ inUnits ⟨c, .ofNat k⟩ := by
  have hpow : 1 <<< 1024 ≤ powerOfTen k :=
    le_trans (show 1 <<< 1024 ≤ powerOfTen 309 by decide +kernel) (powerOfTen_mono hk)
  have hle : units infinityRank ≤ c * powerOfTen k * unitsPerOne := by
    rw [units_infinityRank]
    exact Nat.mul_le_mul_right _ (le_trans hpow (Nat.le_mul_of_pos_left _ (by omega)))
  rw [inUnits_ofNat]
  exact_mod_cast hle

theorem two_mul_inUnits_lt_one {c k : Nat} (hk : c.log2 + 1076 ≤ 3 * (k + 1)) :
    2 * inUnits ⟨c, .negSucc k⟩ < 1 := by
  have hpow (j : Nat) : 2 * (2 ^ (c.log2 + 1) * 1 <<< j) = 2 ^ (c.log2 + (j + 2)) := by
    rw [Nat.one_shiftLeft]
    ring
  have hlt : 2 * (c * unitsPerOne) < powerOfTen (k + 1) := by
    calc 2 * (c * unitsPerOne)
      _ < 2 * (2 ^ (c.log2 + 1) * unitsPerOne) :=
        Nat.mul_lt_mul_of_pos_left
          (Nat.mul_lt_mul_of_pos_right Nat.lt_log2_self (by decide)) (by decide)
      _ = 2 ^ (c.log2 + 1076) := hpow 1074
      _ ≤ 2 ^ (3 * (k + 1)) := Nat.pow_le_pow_right (by decide) hk
      _ = 8 ^ (k + 1) := pow_mul 2 3 (k + 1)
      _ ≤ 10 ^ (k + 1) := Nat.pow_le_pow_left (by decide) _
  have hpos : (0 : ℚ) < powerOfTen (k + 1) := by exact_mod_cast powerOfTen_pos (k + 1)
  rw [inUnits_negSucc, ← mul_div_assoc, div_lt_one hpos]
  exact_mod_cast hlt

/-- **A decimal rounds to the nearest double.** -/
theorem isNearest_rank (d : Decimal) : IsNearest d.rank d.inUnits := by
  obtain ⟨c, e⟩ := d
  rw [rank]
  split
  · next hc =>
    have hzero : inUnits ⟨c, e⟩ = 0 := by simp [inUnits, value, show c = 0 from hc]
    rw [hzero]
    exact isNearest_zero_iff.2 ⟨le_rfl, by norm_num⟩
  · next hc =>
    cases e with
    | ofNat k =>
      dsimp only
      split
      · next hk =>
        have hle := units_infinityRank_le_inUnits hc hk
        have hpred : (units (infinityRank - 1) : ℚ) ≤ units infinityRank := by
          exact_mod_cast units_strictMono.monotone (Nat.sub_le _ 1)
        exact isNearest_infinityRank_iff.2 (by linarith)
      · have hnear := isNearest_nearestRank (c * powerOfTen k * unitsPerOne) Nat.one_pos
        rwa [Nat.cast_one, div_one, ← inUnits_ofNat] at hnear
    | negSucc k =>
      dsimp only
      split
      · next hk => exact isNearest_zero_iff.2 ⟨inUnits_nonneg _, (two_mul_inUnits_lt_one hk).le⟩
      · rw [inUnits_negSucc]
        exact isNearest_nearestRank _ (powerOfTen_pos _)

theorem rank_eq_of_isNearest {d : Decimal} {rank : Nat} (h : IsNearest rank d.inUnits) :
    d.rank = rank :=
  d.isNearest_rank.unique h

/-! ### Decimals that read back -/

/-- How many times `10 ^ -1074` goes into a unit. -/
def tenthsPerUnit : Nat := Nat.pow 5 1074

theorem exactUnits_eq (rank : Nat) : exactUnits rank = units rank * tenthsPerUnit := by
  rw [exactUnits, tenthsPerUnit]

theorem tenthsPerUnit_pos : 0 < tenthsPerUnit := by
  have hpos (k : Nat) : 0 < Nat.pow 5 k := Nat.pow_pos (by decide)
  exact hpos 1074

theorem le_two_mul_div_iff (a n : Nat) :
    (a : ℚ) ≤ 2 * (n / tenthsPerUnit) ↔ a * tenthsPerUnit ≤ 2 * n := by
  have hpos : (0 : ℚ) < tenthsPerUnit := by exact_mod_cast tenthsPerUnit_pos
  rw [← mul_div_assoc, le_div_iff₀ hpos]
  exact_mod_cast Iff.rfl

theorem two_mul_div_le_iff (a n : Nat) :
    2 * (n / tenthsPerUnit) ≤ (a : ℚ) ↔ 2 * n ≤ a * tenthsPerUnit := by
  have hpos : (0 : ℚ) < tenthsPerUnit := by exact_mod_cast tenthsPerUnit_pos
  rw [← mul_div_assoc, div_le_iff₀ hpos]
  exact_mod_cast Iff.rfl

/-- To read back is to be nearest. -/
theorem readsBack_iff_isNearest {rank n : Nat} (hrank : rank < infinityRank) :
    ReadsBack rank n ↔ IsNearest rank (n / tenthsPerUnit) := by
  have hbelow := le_two_mul_div_iff (units (rank - 1) + units rank) n
  have hbelow' := two_mul_div_le_iff (units (rank - 1) + units rank) n
  have habove := two_mul_div_le_iff (units rank + units (rank + 1)) n
  have habove' := le_two_mul_div_iff (units rank + units (rank + 1)) n
  push_cast at hbelow hbelow' habove habove'
  rw [Nat.add_mul] at hbelow hbelow' habove habove'
  simp only [ReadsBack, exactUnits_eq]
  constructor
  · intro h
    refine ⟨Nat.le_of_lt hrank, hbelow.2 ?_, fun heq => ?_, fun _ => habove.2 ?_, fun _ heq => ?_⟩
    · split at h <;> omega
    · have := hbelow'.1 heq.ge
      by_contra hodd
      rw [if_neg hodd] at h
      omega
    · split at h <;> omega
    · have := habove'.1 heq.ge
      by_contra hodd
      rw [if_neg hodd] at h
      omega
  · intro h
    have h₁ := hbelow.1 h.lower
    have h₂ := habove.1 (h.upper hrank)
    split
    · exact ⟨h₁, h₂⟩
    · next hodd =>
      refine ⟨Nat.lt_of_le_of_ne h₁ fun heq => ?_, Nat.lt_of_le_of_ne h₂ fun heq => ?_⟩
      · exact hodd (h.even_of_eq_lower (le_antisymm (hbelow.2 h₁) (hbelow'.2 heq.ge)))
      · exact hodd (h.even_of_eq_upper hrank (le_antisymm (habove.2 h₂) (habove'.2 heq.ge)))

/-- A multiple of a power of ten of `10 ^ -1074`, as a decimal. -/
theorem inUnits_atPlace (n place : Nat) :
    inUnits ⟨n, place - 1074⟩ = (n * powerOfTen place : Nat) / tenthsPerUnit := by
  have hshift (k : Nat) : (10 : ℚ) ^ ((place : Int) - k) * 2 ^ k = 10 ^ place / 5 ^ k := by
    have hten : (10 : ℚ) ^ k = 2 ^ k * 5 ^ k := by rw [← mul_pow]; norm_num
    rw [zpow_sub₀ (by norm_num), zpow_natCast, zpow_natCast, hten]
    field_simp
  have htwo : (unitsPerOne : ℚ) = 2 ^ 1074 := cast_one_shiftLeft 1074
  have hfive : (tenthsPerUnit : ℚ) = 5 ^ 1074 := Nat.cast_pow 5 1074
  have hten : (powerOfTen place : ℚ) = 10 ^ place := Nat.cast_pow 10 place
  rw [inUnits, value, htwo, hfive, Nat.cast_mul, hten, mul_assoc, mul_div_assoc]
  congr 1
  exact hshift 1074

theorem isNearest_exact {rank : Nat} (h : rank < infinityRank) :
    IsNearest rank (inUnits ⟨exactUnits rank, -1074⟩) := by
  have hplace := inUnits_atPlace (exactUnits rank) 0
  have hpos : (tenthsPerUnit : ℚ) ≠ 0 := by exact_mod_cast tenthsPerUnit_pos.ne'
  have hself : inUnits ⟨exactUnits rank, -1074⟩ = units rank := by
    rw [exactUnits_eq] at hplace ⊢
    refine hplace.trans ?_
    rw [powerOfTen, Nat.cast_mul, Nat.cast_mul, mul_div_assoc]
    field_simp
    exact mul_one _
  rw [hself]
  exact isNearest_units h

theorem readsBack_of_multiple? {rank step n : Nat} (h : multiple? rank step = some n) :
    ReadsBack rank (n * step) := by
  simp only [multiple?] at h
  split at h
  · next hcond =>
    cases h
    exact hcond.1
  · split at h
    · next hcond =>
      cases h
      exact hcond
    · contradiction

/-- **The shortest decimal of a double reads back as that double.** -/
theorem rank_shortest {rank : Nat} (h : rank < infinityRank) : (shortest rank).rank = rank := by
  apply rank_eq_of_isNearest
  rw [shortest]
  split
  · next hzero =>
    have : inUnits ⟨0, 0⟩ = 0 := by simp [inUnits, value]
    rw [this, hzero]
    exact isNearest_zero_iff.2 ⟨le_rfl, by norm_num⟩
  · dsimp only
    cases hfind : (List.range (exactLength rank)).findSome?
        fun i => atPlace? rank (exactLength rank - 1 - i) with
    | none =>
      rw [Option.getD_none]
      exact isNearest_exact h
    | some d =>
      obtain ⟨i, -, hplace⟩ := List.exists_of_findSome?_eq_some hfind
      simp only [atPlace?, Option.map_eq_some_iff] at hplace
      obtain ⟨n, hn, rfl⟩ := hplace
      rw [Option.getD_some, inUnits_atPlace, ← readsBack_iff_isNearest h]
      exact readsBack_of_multiple? hn

end Calculator.Decimal
