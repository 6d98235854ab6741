import Calculator.Binary64.Rounding
import Calculator.Proofs.Binary64.Magnitude
import Mathlib.Data.Nat.Cast.Basic
import Mathlib.Data.Nat.Log
import Mathlib.Tactic.FieldSimp
import Mathlib.Tactic.Linarith
import Mathlib.Tactic.Positivity

/-! The nearest double to a magnitude.

`IsNearest rank u` says that the double of this rank is nearest to `u` units, without
saying how to find it: `u` lies between the midpoints to its neighbours, and on one of
them only if the rank is even; past the last midpoint it is infinity. There is exactly
one such rank (`IsNearest.unique`), and rounding finds it (`isNearest_nearestRank`). -/
namespace Calculator.Binary64

theorem cast_one_shiftLeft (k : Nat) : ((1 <<< k : Nat) : ℚ) = 2 ^ k := by
  rw [Nat.one_shiftLeft, Nat.cast_pow, Nat.cast_ofNat]

theorem unitsPerOne_cast : (unitsPerOne : ℚ) = 2 ^ (1074 : ℤ) :=
  (cast_one_shiftLeft 1074).trans (zpow_natCast 2 1074).symm

/-- The rank at which a double is nearest to `u` units, of two the even one. -/
structure IsNearest (rank : Nat) (u : ℚ) : Prop where
  le_infinityRank : rank ≤ infinityRank
  lower : (units (rank - 1) + units rank : ℚ) ≤ 2 * u
  even_of_eq_lower : (units (rank - 1) + units rank : ℚ) = 2 * u → rank % 2 = 0
  upper : rank < infinityRank → 2 * u ≤ units rank + units (rank + 1)
  even_of_eq_upper : rank < infinityRank → 2 * u = units rank + units (rank + 1) → rank % 2 = 0

/-- No midpoint is shared by two even ranks. -/
theorem IsNearest.not_lt {r s : Nat} {u : ℚ} (hr : IsNearest r u) (hs : IsNearest s u) : ¬ r < s := by
  intro hlt
  have hinf : r < infinityRank := Nat.lt_of_lt_of_le hlt hs.le_infinityRank
  have hbelow : (units r : ℚ) ≤ units (s - 1) := by
    exact_mod_cast units_strictMono.monotone (Nat.le_sub_one_of_lt hlt)
  have habove : (units (r + 1) : ℚ) ≤ units s := by
    exact_mod_cast units_strictMono.monotone hlt
  have hupper := hr.upper hinf
  have hlower := hs.lower
  have hreven := hr.even_of_eq_upper hinf (by linarith)
  have hseven := hs.even_of_eq_lower (by linarith)
  have hsame : units (r + 1) = units s := by
    have : (units (r + 1) : ℚ) = units s := by linarith
    exact_mod_cast this
  have := units_strictMono.injective hsame
  omega

theorem IsNearest.unique {r s : Nat} {u : ℚ} (hr : IsNearest r u) (hs : IsNearest s u) : r = s :=
  Nat.le_antisymm (Nat.not_lt.1 (hs.not_lt hr)) (Nat.not_lt.1 (hr.not_lt hs))

/-- Every finite magnitude is nearest to itself. -/
theorem isNearest_units {rank : Nat} (h : rank < infinityRank) : IsNearest rank (units rank) := by
  have hbelow : (units (rank - 1) : ℚ) ≤ units rank := by
    exact_mod_cast units_strictMono.monotone (Nat.sub_le rank 1)
  have habove : (units rank : ℚ) < units (rank + 1) := by
    exact_mod_cast units_lt_units_succ rank
  refine ⟨Nat.le_of_lt h, by linarith, fun heq => ?_, fun _ => by linarith, fun _ heq => ?_⟩
  · have hsame : units (rank - 1) = units rank := by
      have : (units (rank - 1) : ℚ) = units rank := by linarith
      exact_mod_cast this
    have := units_strictMono.injective hsame
    omega
  · exfalso
    linarith

/-- What rounds to zero goes up to half the smallest magnitude. -/
theorem isNearest_zero_iff {u : ℚ} : IsNearest 0 u ↔ 0 ≤ u ∧ 2 * u ≤ 1 := by
  have hone : units (0 + 1) = 1 := units_of_lt (by decide)
  have hlower : (units (0 - 1) + units 0 : ℚ) ≤ 2 * u ↔ 0 ≤ u := by simp [units_zero]
  have hupper : 2 * u ≤ (units 0 + units (0 + 1) : ℚ) ↔ 2 * u ≤ 1 := by simp [units_zero, hone]
  constructor
  · intro h
    exact ⟨hlower.1 h.lower, hupper.1 (h.upper (by decide))⟩
  · intro h
    exact ⟨Nat.zero_le _, hlower.2 h.1, fun _ => rfl, fun _ => hupper.2 h.2, fun _ _ => rfl⟩

/-- What rounds to infinity begins at the last midpoint. -/
theorem isNearest_infinityRank_iff {u : ℚ} :
    IsNearest infinityRank u ↔ (units (infinityRank - 1) + units infinityRank : ℚ) ≤ 2 * u := by
  constructor
  · exact IsNearest.lower
  · intro h
    exact ⟨Nat.le_refl _, h, fun _ => by decide, fun hlt => absurd hlt (Nat.lt_irrefl _),
      fun hlt => absurd hlt (Nat.lt_irrefl _)⟩

/-! ### Rounding to a whole number -/

section RoundHalfEven
variable (n : Nat) {d : Nat}

theorem div_le_roundHalfEven : n / d ≤ roundHalfEven n d := by
  unfold roundHalfEven
  dsimp only
  split <;> omega

theorem roundHalfEven_le : roundHalfEven n d ≤ n / d + 1 := by
  unfold roundHalfEven
  dsimp only
  split <;> omega

/-- Exactly half away, the even one of the two neighbours is taken. -/
theorem roundHalfEven_even
    (h : 2 * n = (2 * roundHalfEven n d + 1) * d ∨ 2 * roundHalfEven n d * d = 2 * n + d)
    (hd : 0 < d) : roundHalfEven n d % 2 = 0 := by
  have hdiv := Nat.div_add_mod n d
  have hmod := Nat.mod_lt n hd
  simp only [roundHalfEven] at h ⊢
  generalize n / d = q at hdiv h ⊢
  generalize n % d = r at hdiv hmod h ⊢
  have hq : q * d = d * q := Nat.mul_comm ..
  split at h
  · next hcond =>
    rw [if_pos hcond]
    simp only [Nat.add_mul, Nat.mul_assoc] at h
    omega
  · next hcond =>
    rw [if_neg hcond]
    simp only [Nat.add_mul, Nat.mul_add, Nat.mul_assoc] at h
    omega

end RoundHalfEven

/-! ### Rounding to a rank -/

/-- A significand whose distance from `u` is half a step at most, and less if it is odd, in
the run of steps that `u` belongs to. -/
structure IsSignificand (significand exponent : Nat) (u : ℚ) : Prop where
  le_two_mul_binade : significand ≤ 2 * binade
  binade_le : exponent = 0 ∨ binade ≤ significand
  start_le : exponent = 0 ∨ (binade * 2 ^ exponent : ℚ) ≤ u
  lower : ((2 * significand - 1) * 2 ^ exponent : ℚ) ≤ 2 * u
  even_of_eq_lower : ((2 * significand - 1) * 2 ^ exponent : ℚ) = 2 * u → significand % 2 = 0
  upper : 2 * u ≤ ((2 * significand + 1) * 2 ^ exponent : ℚ)
  even_of_eq_upper : 2 * u = ((2 * significand + 1) * 2 ^ exponent : ℚ) → significand % 2 = 0

namespace IsSignificand
variable {significand exponent : Nat} {u : ℚ}

theorem units_eq (h : IsSignificand significand exponent u) :
    (units (exponent * binade + significand) : ℚ) = significand * 2 ^ exponent := by
  rw [units_mul_add h.le_two_mul_binade h.binade_le]
  push_cast
  rfl

/-- The next magnitude is a step further, or two where the steps get wider. -/
theorem le_units_succ (h : IsSignificand significand exponent u) :
    ((significand + 1) * 2 ^ exponent : ℚ) ≤ units (exponent * binade + significand + 1) := by
  have hle := h.le_two_mul_binade
  rw [Nat.add_assoc]
  by_cases hlast : significand < 2 * binade
  · rw [units_mul_add hlast (by have := h.binade_le; omega)]
    push_cast
    exact le_rfl
  · obtain rfl : significand = 2 * binade := by omega
    have hnext : exponent * binade + (2 * binade + 1) = (exponent + 1) * binade + (binade + 1) := by ring
    rw [hnext, units_mul_add (by have := binade_pos; omega) (.inr (Nat.le_succ _))]
    push_cast
    have : (0 : ℚ) < 2 ^ exponent := by positivity
    rw [pow_succ]
    linarith

/-- The previous magnitude is a step back, or half a step where the steps get narrower; but then
`u` is not below the magnitude itself. -/
theorem units_pred_add_units (h : IsSignificand significand exponent u) (hu : 0 ≤ u) :
    (units (exponent * binade + significand - 1) + units (exponent * binade + significand) : ℚ) ≤
        2 * u ∧
      ((units (exponent * binade + significand - 1) + units (exponent * binade + significand) : ℚ) =
        2 * u → significand % 2 = 0) := by
  by_cases hzero : exponent * binade + significand = 0
  · have hsig : significand = 0 := by omega
    rw [hzero, Nat.zero_sub, units_zero, hsig]
    exact ⟨by simpa using hu, fun _ => rfl⟩
  by_cases hinside : exponent = 0 ∨ binade < significand
  · have hpos : 0 < significand := by
      rcases hinside with rfl | hlt
      · omega
      · omega
    have hpred : (units (exponent * binade + significand - 1) : ℚ) =
        (significand - 1) * 2 ^ exponent := by
      rw [Nat.add_sub_assoc hpos, units_mul_add (by have := h.le_two_mul_binade; omega) (by omega)]
      push_cast [Nat.cast_sub hpos]
      rfl
    have hsum : (units (exponent * binade + significand - 1) +
        units (exponent * binade + significand) : ℚ) = (2 * significand - 1) * 2 ^ exponent := by
      rw [hpred, h.units_eq]
      ring
    rw [hsum]
    exact ⟨h.lower, h.even_of_eq_lower⟩
  · have hexp : exponent ≠ 0 := by omega
    have hsig : significand = binade := by have := h.binade_le; omega
    have hpred : (units (exponent * binade + significand - 1) : ℚ) <
        units (exponent * binade + significand) := by
      exact_mod_cast units_strictMono (Nat.sub_lt (by omega) Nat.one_pos)
    have hstart : (units (exponent * binade + significand) : ℚ) ≤ u := by
      rw [h.units_eq, hsig]
      exact h.start_le.resolve_left hexp
    exact ⟨by linarith, fun heq => by linarith⟩

theorem rank_mod_two (significand exponent : Nat) :
    (exponent * binade + significand) % 2 = significand % 2 := by
  have hbinade : exponent * binade = 2 * (exponent * (binade / 2)) := by
    rw [Nat.mul_left_comm]
    rfl
  omega

/-- Such a significand makes the nearest rank. -/
theorem isNearest (h : IsSignificand significand exponent u) (hu : 0 ≤ u) :
    IsNearest (min infinityRank (exponent * binade + significand)) u := by
  obtain ⟨hlower, heven⟩ := h.units_pred_add_units hu
  have hupper := h.le_units_succ
  have hunits := h.units_eq
  by_cases hinf : exponent * binade + significand < infinityRank
  · rw [Nat.min_eq_right (Nat.le_of_lt hinf)]
    refine ⟨Nat.le_of_lt hinf, hlower, ?_, fun _ => ?_, fun _ heq => ?_⟩
    · rwa [rank_mod_two]
    · have := h.upper
      linarith
    · rw [rank_mod_two]
      apply h.even_of_eq_upper
      have := h.upper
      linarith
  · rw [Nat.min_eq_left (Nat.not_lt.1 hinf)]
    have hpred : (units (infinityRank - 1) : ℚ) ≤ units (exponent * binade + significand - 1) := by
      exact_mod_cast units_strictMono.monotone (Nat.sub_le_sub_right (Nat.not_lt.1 hinf) 1)
    have hself : (units infinityRank : ℚ) ≤ units (exponent * binade + significand) := by
      exact_mod_cast units_strictMono.monotone (Nat.not_lt.1 hinf)
    exact isNearest_infinityRank_iff.2 (by linarith)

end IsSignificand

/-- The exponent is chosen so that the whole part of the significand has 53 digits at most, and
all of them unless it is zero. -/
theorem div_exponent_bounds (q : Nat) :
    q / 2 ^ (Nat.log2 q - 52) < 2 * binade ∧
      (Nat.log2 q - 52 = 0 ∨ binade ≤ q / 2 ^ (Nat.log2 q - 52)) := by
  have hbinade : binade = 2 ^ 52 := rfl
  have htwice : 2 * binade = 2 ^ 53 := rfl
  constructor
  · rw [htwice, Nat.div_lt_iff_lt_mul (by positivity), ← pow_add]
    exact Nat.lt_of_lt_of_le Nat.lt_log2_self (Nat.pow_le_pow_right (by decide) (by omega))
  · by_cases hexp : Nat.log2 q - 52 = 0
    · exact .inl hexp
    · have hq : q ≠ 0 := by
        rintro rfl
        exact hexp rfl
      refine .inr ?_
      rw [hbinade, Nat.le_div_iff_mul_le (by positivity), ← pow_add]
      exact le_trans (Nat.pow_le_pow_right (by decide) (by omega)) (Nat.log2_self_le hq)

/-- The significand that rounding finds. -/
theorem isSignificand_roundHalfEven (n : Nat) {d : Nat} (hd : 0 < d) :
    IsSignificand (roundHalfEven n (d <<< (Nat.log2 (n / d) - 52))) (Nat.log2 (n / d) - 52)
      (n / d) := by
  obtain ⟨hlt, hge⟩ := div_exponent_bounds (n / d)
  generalize Nat.log2 (n / d) - 52 = exponent at hlt hge ⊢
  rw [Nat.shiftLeft_eq]
  have hstep : 0 < d * 2 ^ exponent := by positivity
  rw [Nat.div_div_eq_div_mul] at hlt hge
  have hfloor := div_le_roundHalfEven n (d := d * 2 ^ exponent)
  have hceil := roundHalfEven_le n (d := d * 2 ^ exponent)
  obtain ⟨hupper, hlower⟩ := roundHalfEven_near n hstep
  have heven := roundHalfEven_even n (d := d * 2 ^ exponent)
  generalize roundHalfEven n (d * 2 ^ exponent) = m at hfloor hceil hupper hlower heven ⊢
  have hd' : (0 : ℚ) < d := by exact_mod_cast hd
  have hu : (n / d * d : ℚ) = n := div_mul_cancel₀ _ hd'.ne'
  generalize (n / d : ℚ) = u at hu ⊢
  -- Both midpoints, and `u` itself, as whole numbers once they are multiplied by `d`.
  have hbelow : ((2 * m - 1) * 2 ^ exponent * d : ℚ) + d * 2 ^ exponent = 2 * m * (d * 2 ^ exponent) := by
    ring
  have habove : ((2 * m + 1) * 2 ^ exponent * d : ℚ) = (2 * m + 1) * (d * 2 ^ exponent) := by ring
  have htwice : (2 * u * d : ℚ) = 2 * n := by rw [mul_assoc, hu]
  have hlower' : (2 * m * (d * 2 ^ exponent) : ℚ) ≤ 2 * n + d * 2 ^ exponent := by
    exact_mod_cast hlower
  have hupper' : (2 * n : ℚ) ≤ (2 * m + 1) * (d * 2 ^ exponent) := by exact_mod_cast hupper
  refine ⟨by omega, by omega, ?_, ?_, fun heq => ?_, ?_, fun heq => ?_⟩
  · refine hge.imp_right fun hge => le_of_mul_le_mul_right ?_ hd'
    rw [hu, mul_assoc, mul_comm (2 ^ exponent : ℚ)]
    exact_mod_cast (Nat.le_div_iff_mul_le hstep).1 hge
  · exact le_of_mul_le_mul_right (by linarith) hd'
  · have : (2 * m * (d * 2 ^ exponent) : ℚ) = 2 * n + d * 2 ^ exponent := by
      rw [← hbelow, heq, htwice]
    exact heven (.inr (by exact_mod_cast this)) hstep
  · exact le_of_mul_le_mul_right (by linarith) hd'
  · have : (2 * n : ℚ) = (2 * m + 1) * (d * 2 ^ exponent) := by
      rw [← habove, ← heq, htwice]
    exact heven (.inl (by exact_mod_cast this)) hstep

theorem isNearest_nearestRank (n : Nat) {d : Nat} (hd : 0 < d) :
    IsNearest (nearestRank n d) (n / d) :=
  (isSignificand_roundHalfEven n hd).isNearest (by positivity)

end Calculator.Binary64
