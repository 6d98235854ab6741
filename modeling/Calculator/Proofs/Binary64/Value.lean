import Calculator.Proofs.Binary64.Float

/-! The numbers that doubles are, and which of them a number rounds to.

A finite double is a significand times a power of two, with its sign (`value`), and that is the
magnitude at its rank (`value_of_finite`). `RoundsTo` says what correct rounding is by distances
among all finite doubles, the negative ones included, and leaves one double only
(`RoundsTo.unique`). A rank that is nearest among ranks makes that double
(`IsNearest.roundsTo`). -/
namespace Calculator.Binary64
open Float.Model

/-- The number that a finite double is. -/
def value (x : Float) : ℚ :=
  match x.toModel.unpack with
  | .finite sign significand exponent _ =>
    if isNegative sign then -(significand * 2 ^ exponent) else significand * 2 ^ exponent
  | _ => 0

/-- The double that a number from zero up rounds to: the nearest one, of two the one whose last
bit is zero, and infinity from halfway between the largest finite one and `2 ^ 1024`. -/
structure RoundsTo (q : ℚ) (x : Float) : Prop where
  infinite : 2 ^ 1024 - 2 ^ 970 ≤ q → x = Float.inf
  finite : q < 2 ^ 1024 - 2 ^ 970 → x.isFinite = true
  nearest : ∀ y : Float, x.isFinite = true → y.isFinite = true → |value x - q| ≤ |value y - q|
  even : ∀ y : Float, x.isFinite = true → y.isFinite = true → value y ≠ value x →
    |value x - q| = |value y - q| → x.toBits.toNat % 2 = 0

theorem unitsPerOne_pos : (0 : ℚ) < unitsPerOne := by
  rw [unitsPerOne_cast]
  positivity

/-! ### Values and ranks -/

theorem value_of_finite {x : Float} {negative : Bool} {rank : Nat}
    (h : ofFloat x = .finite negative rank) :
    value x * unitsPerOne = if negative then -(units rank : ℚ) else units rank := by
  obtain ⟨sign, rfl, hunpack⟩ := unpack_of_finite h
  rw [value]
  rcases hunpack with ⟨rfl, hzero⟩ | ⟨-, m, e, hm, hunits, hfinite⟩
  · simp [hzero, units_zero]
  · simp only [hfinite]
    split
    · rw [neg_mul, hunits]
    · exact hunits

example : value (-0.75) = -3 / 4 := by decide +kernel

theorem abs_value_sub_mul (x : Float) (q : ℚ) :
    |value x - q| * unitsPerOne = |value x * unitsPerOne - q * unitsPerOne| := by
  rw [← sub_mul, abs_mul, abs_of_pos unitsPerOne_pos]

theorem toBits_mod_two {x : Float} {negative : Bool} {rank : Nat}
    (h : ofFloat x = .finite negative rank) : x.toBits.toNat % 2 = rank % 2 := by
  have hsign : signBit = 2 * 2 ^ 62 := rfl
  unfold ofFloat at h
  dsimp only at h
  split at h
  · injection h with _ hrank
    rw [← hrank, hsign]
    omega
  · split at h <;> contradiction

theorem value_lt_of_rank_lt {x y : Float} {r s : Nat} (hx : ofFloat x = .finite false r)
    (hy : ofFloat y = .finite false s) (h : r < s) : value x < value y := by
  have hunits : (units r : ℚ) < units s := by exact_mod_cast units_strictMono h
  have hxvalue := value_of_finite hx
  have hyvalue := value_of_finite hy
  simp only [Bool.false_eq_true, if_false] at hxvalue hyvalue
  rw [← hxvalue, ← hyvalue] at hunits
  exact lt_of_mul_lt_mul_right hunits unitsPerOne_pos.le

/-! ### Only one double is rounded to -/

namespace RoundsTo
variable {q : ℚ} {x y : Float}

/-- Two ranks at one distance are both even, so there is one between them, and it is nearer. -/
theorem not_rank_lt (hx : RoundsTo q x) (hy : RoundsTo q y) {r s : Nat}
    (hr : ofFloat x = .finite false r) (hs : ofFloat y = .finite false s) : ¬ r < s := by
  intro hlt
  have hxfinite := isFinite_iff.2 ⟨_, _, hr⟩
  have hyfinite := isFinite_iff.2 ⟨_, _, hs⟩
  have hvalue := value_lt_of_rank_lt hr hs hlt
  have hsame := le_antisymm (hx.nearest y hxfinite hyfinite) (hy.nearest x hyfinite hxfinite)
  have hreven := hx.even y hxfinite hyfinite hvalue.ne' hsame
  have hseven := hy.even x hyfinite hxfinite hvalue.ne hsame.symm
  rw [toBits_mod_two hr] at hreven
  rw [toBits_mod_two hs] at hseven
  have hbetween : ofFloat (ofRank (r + 1)) = .finite false (r + 1) :=
    ofFloat_ofRank (Nat.lt_of_le_of_lt hlt (rank_lt_of_ofFloat hs))
  have habove := value_lt_of_rank_lt hr hbetween (Nat.lt_succ_self r)
  have hbelow := value_lt_of_rank_lt hbetween hs (by omega)
  have hnearest := hx.nearest _ hxfinite (isFinite_iff.2 ⟨_, _, hbetween⟩)
  rcases abs_cases (value x - q) with h | h <;> rcases abs_cases (value y - q) with h' | h' <;>
    rcases abs_cases (value (ofRank (r + 1)) - q) with h'' | h'' <;> linarith

theorem unique (hx : RoundsTo q x) (hy : RoundsTo q y) (hxsign : 0 ≤ x ∧ x ≠ -0.0)
    (hysign : 0 ≤ y ∧ y ≠ -0.0) : x = y := by
  rcases lt_or_ge q (2 ^ 1024 - 2 ^ 970) with hlt | hge
  · obtain ⟨r, hr⟩ := (exists_rank_iff (isFinite_iff.1 (hx.finite hlt))).2 hxsign
    obtain ⟨s, hs⟩ := (exists_rank_iff (isFinite_iff.1 (hy.finite hlt))).2 hysign
    have hrank : r = s := Nat.le_antisymm (Nat.not_lt.1 (hy.not_rank_lt hx hs hr))
      (Nat.not_lt.1 (hx.not_rank_lt hy hr hs))
    exact eq_of_finite hr (hrank ▸ hs)
  · rw [hx.infinite hge, hy.infinite hge]

end RoundsTo

/-! ### Distances -/

theorem ofRank_infinityRank : ofRank infinityRank = Float.inf := by decide

namespace IsNearest
variable {rank : Nat} {u : ℚ}

/-- No other magnitude is nearer, and if one is as near the rank is even. -/
theorem abs_le_of_ne (h : IsNearest rank u) (hrank : rank < infinityRank) {other : Nat}
    (hne : other ≠ rank) :
    |(units rank : ℚ) - u| ≤ |(units other : ℚ) - u| ∧
      (|(units rank : ℚ) - u| = |(units other : ℚ) - u| → rank % 2 = 0) := by
  have hlower := h.lower
  have hupper := h.upper hrank
  have mono {r s : Nat} (hle : r ≤ s) : (units r : ℚ) ≤ units s := by
    exact_mod_cast units_strictMono.monotone hle
  have hpred := mono (Nat.sub_le rank 1)
  have hsucc := mono (Nat.le_succ rank)
  rcases Nat.lt_or_gt_of_ne hne with hlt | hgt
  · have hother := mono (Nat.le_sub_one_of_lt hlt)
    have hstrict : (units other : ℚ) < units rank := by exact_mod_cast units_strictMono hlt
    rw [abs_of_nonpos (a := (units other : ℚ) - u) (by linarith)]
    refine ⟨abs_le.2 ⟨by linarith, by linarith⟩, fun heq => h.even_of_eq_lower ?_⟩
    rcases abs_cases ((units rank : ℚ) - u) with ⟨habs, -⟩ | ⟨habs, -⟩ <;> linarith
  · have hother := mono (Nat.succ_le_of_lt hgt)
    have hstrict : (units rank : ℚ) < units other := by exact_mod_cast units_strictMono hgt
    rw [abs_of_nonneg (a := (units other : ℚ) - u) (by linarith)]
    refine ⟨abs_le.2 ⟨by linarith, by linarith⟩, fun heq => h.even_of_eq_upper hrank ?_⟩
    rcases abs_cases ((units rank : ℚ) - u) with ⟨habs, -⟩ | ⟨habs, -⟩ <;> linarith

/-- Zero is no nearer, and if it is as near the rank is even. -/
theorem abs_le (h : IsNearest rank u) (hrank : rank < infinityRank) (hu : 0 ≤ u) :
    |(units rank : ℚ) - u| ≤ u ∧ (|(units rank : ℚ) - u| = u → rank % 2 = 0) := by
  by_cases hzero : rank = 0
  · rw [hzero, units_zero, Nat.cast_zero, zero_sub, abs_neg, abs_of_nonneg hu]
    exact ⟨le_rfl, fun _ => rfl⟩
  · have hother := h.abs_le_of_ne hrank (Ne.symm hzero)
    rwa [units_zero, Nat.cast_zero, zero_sub, abs_neg, abs_of_nonneg hu] at hother

/-- No finite double is nearer, and if another one is as near the rank is even. A double below
zero is no nearer than zero. -/
theorem abs_value_le {q : ℚ} (h : IsNearest rank (q * unitsPerOne)) (hrank : rank < infinityRank)
    (hq : 0 ≤ q) {y : Float} (hy : IsFinite y) :
    |value (ofRank rank) - q| ≤ |value y - q| ∧
      (value y ≠ value (ofRank rank) → |value (ofRank rank) - q| = |value y - q| → rank % 2 = 0) := by
  obtain ⟨negative, other, hy⟩ := hy
  have hx := value_of_finite (ofFloat_ofRank hrank)
  have hvalue := value_of_finite hy
  have hscale := mul_le_mul_iff_left₀ unitsPerOne_pos (b := |value (ofRank rank) - q|)
    (c := |value y - q|)
  have hu : 0 ≤ q * unitsPerOne := mul_nonneg hq unitsPerOne_pos.le
  have hsame (heq : |value (ofRank rank) - q| = |value y - q|) :=
    congrArg (· * (unitsPerOne : ℚ)) heq
  simp only [abs_value_sub_mul, hx, hvalue, Bool.false_eq_true, if_false] at hscale hsame
  rw [← hscale]
  cases negative with
  | true =>
    obtain ⟨hle, heven⟩ := h.abs_le hrank hu
    have hother : |(-(units other) : ℚ) - q * unitsPerOne| = units other + q * unitsPerOne := by
      rw [← neg_add', abs_neg, abs_of_nonneg (add_nonneg (Nat.cast_nonneg _) hu)]
    have hpos : (0 : ℚ) ≤ units other := Nat.cast_nonneg _
    simp only [if_true, hother] at hsame ⊢
    exact ⟨by linarith, fun _ heq => heven (by linarith [hsame heq])⟩
  | false =>
    simp only [Bool.false_eq_true, if_false] at hsame hvalue ⊢
    by_cases hne : other = rank
    · have hsameValue : value y = value (ofRank rank) := by
        apply mul_right_cancel₀ unitsPerOne_pos.ne'
        rw [hvalue, hx, hne]
        rfl
      exact ⟨by rw [hne], fun hdiffers => absurd hsameValue hdiffers⟩
    · obtain ⟨hle, heven⟩ := h.abs_le_of_ne hrank hne
      exact ⟨hle, fun _ heq => heven (hsame heq)⟩

/-- Halfway between the largest finite magnitude and the one after it. -/
theorem units_overflow :
    units (infinityRank - 1) + units infinityRank + 2 * ((1 <<< 970) * unitsPerOne) =
      2 * ((1 <<< 1024) * unitsPerOne) := by decide +kernel

theorem eq_infinityRank_iff {q : ℚ} (h : IsNearest rank (q * unitsPerOne)) :
    rank = infinityRank ↔ 2 ^ 1024 - 2 ^ 970 ≤ q := by
  have hhalf : (units (infinityRank - 1) + units infinityRank : ℚ) =
      2 * ((2 ^ 1024 - 2 ^ 970) * unitsPerOne) := by
    have hsum := congrArg (Nat.cast (R := ℚ)) units_overflow
    simp only [Nat.cast_add, Nat.cast_mul, cast_one_shiftLeft, Nat.cast_ofNat] at hsum
    generalize (2 : ℚ) ^ 1024 = high at hsum ⊢
    generalize (2 : ℚ) ^ 970 = low at hsum ⊢
    linarith
  have hiff : IsNearest infinityRank (q * unitsPerOne) ↔ 2 ^ 1024 - 2 ^ 970 ≤ q := by
    rw [isNearest_infinityRank_iff, hhalf, mul_le_mul_iff_right₀ (by decide),
      mul_le_mul_iff_left₀ unitsPerOne_pos]
  rw [← hiff]
  constructor
  · intro heq
    exact heq ▸ h
  · exact h.unique

/-- Half the smallest magnitude above zero is the most that rounds to zero. -/
theorem eq_zero_iff {q : ℚ} (h : IsNearest rank (q * unitsPerOne)) (hq : 0 ≤ q) :
    rank = 0 ↔ q ≤ 2 ^ (-1075 : ℤ) := by
  have hhalf : (2 : ℚ) ^ (-1075 : ℤ) * (2 * unitsPerOne) = 1 := by
    rw [unitsPerOne_cast, ← zpow_one_add₀ (by decide), ← zpow_add₀ (by decide)]
    rfl
  have hpos : (0 : ℚ) < 2 * unitsPerOne := mul_pos (by decide) unitsPerOne_pos
  have hiff : IsNearest 0 (q * unitsPerOne) ↔ q ≤ 2 ^ (-1075 : ℤ) := by
    rw [isNearest_zero_iff, mul_left_comm, ← hhalf, mul_le_mul_iff_left₀ hpos]
    exact and_iff_right (mul_nonneg hq unitsPerOne_pos.le)
  rw [← hiff]
  constructor
  · intro heq
    exact heq ▸ h
  · exact h.unique

/-- **The double of the nearest rank is the one that is rounded to.** -/
theorem roundsTo {q : ℚ} (h : IsNearest rank (q * unitsPerOne)) (hq : 0 ≤ q) :
    RoundsTo q (ofRank rank) := by
  by_cases hinfinity : rank = infinityRank
  · have hinf : ofRank rank = Float.inf := hinfinity ▸ ofRank_infinityRank
    have hinfinite : (ofRank rank).isFinite ≠ true := by
      rw [hinf]
      decide
    have hge := h.eq_infinityRank_iff.1 hinfinity
    exact ⟨fun _ => hinf, fun hlt => absurd hge hlt.not_ge, fun y hx => absurd hx hinfinite,
      fun y hx => absurd hx hinfinite⟩
  · have hrank : rank < infinityRank := Nat.lt_of_le_of_ne h.le_infinityRank hinfinity
    have hx := ofFloat_ofRank hrank
    refine ⟨fun hge => absurd (h.eq_infinityRank_iff.2 hge) hinfinity,
      fun _ => isFinite_iff.2 ⟨_, _, hx⟩, fun y _ hy => ?_, fun y _ hy hne heq => ?_⟩
    · exact (h.abs_value_le hrank hq (isFinite_iff.1 hy)).1
    · rw [toBits_mod_two hx]
      exact (h.abs_value_le hrank hq (isFinite_iff.1 hy)).2 hne heq

end IsNearest

theorem ofRank_eq_zero_iff {rank : Nat} (h : rank ≤ infinityRank) : ofRank rank = 0 ↔ rank = 0 := by
  rcases Nat.lt_or_eq_of_le h with hlt | rfl
  · constructor
    · intro heq
      have hzero := ofFloat_ofRank hlt
      rw [heq, ofFloat_zero] at hzero
      injection hzero with _ hrank
      exact hrank.symm
    · intro heq
      rw [heq]
      exact ofRank_of_finite ofFloat_zero
  · decide

/-- What is rounded to has no sign and is a number. -/
theorem unsigned_ofRank {rank : Nat} (h : rank ≤ infinityRank) :
    0 ≤ ofRank rank ∧ ofRank rank ≠ -0.0 ∧ (ofRank rank).isNaN = false := by
  rcases Nat.lt_or_eq_of_le h with hlt | heq
  · have hx := ofFloat_ofRank hlt
    refine ⟨(zero_le_iff hx).2 (.inl rfl), ne_neg_zero_of_finite hx, ?_⟩
    obtain ⟨sign, -, hunpack⟩ := unpack_of_finite hx
    show (ofRank rank).toModel.unpack.isNaN = false
    rcases hunpack with ⟨-, hzero⟩ | ⟨-, m, e, hm, -, hfinite⟩
    · rw [hzero]
      rfl
    · rw [hfinite]
      rfl
  · rw [heq, ofRank_infinityRank]
    decide

end Calculator.Binary64
