import Calculator.Proofs.Binary64.Nearest
import Mathlib

/-! Finite doubles, their signs and ranks.

Operations on floats unpack the bits, work on the parts and pack the result again. The
exponent and the significand of a double make its rank, and the exponents of finite
doubles are those that are not all ones (`ofFloat_eq_finite_iff`). So a finite double is
its sign and its rank: one without a sign is that of its rank (`ofRank_of_finite`),
negation turns the sign alone (`ofFloat_neg`), and a comparison with zero looks at the
sign unless the rank is zero (`lt_zero_iff`). -/
namespace Calculator.Binary64
open Float.Model UnpackedFloat

theorem binade_eq : binade = 2 ^ 52 := rfl

theorem signBit_eq : signBit = 2 ^ 63 := rfl

theorem infinityRank_eq : infinityRank = 2047 * 2 ^ 52 := rfl

/-! ### Fields -/

def isNegative : Sign → Bool
  | .negative => true
  | .positive => false

/-- The bits of a double with these fields. -/
def fields (sign : Sign) (exponent : BitVec 11) (significand : BitVec 52) : BitVec 64 :=
  packComponents .binary64 sign exponent significand

theorem toNat_fields (sign : Sign) (exponent : BitVec 11) (significand : BitVec 52) :
    (fields sign exponent significand).toNat =
      (if isNegative sign then signBit else 0) + (exponent.toNat * binade + significand.toNat) := by
  have he := exponent.isLt
  have hs := significand.isLt
  have hsign : sign.toBitVec.toNat * signBit = if isNegative sign then signBit else 0 := by
    cases sign <;> rfl
  rw [← hsign]
  unfold fields packComponents
  rw [BitVec.toNat_append, BitVec.toNat_append, ← Nat.shiftLeft_add_eq_or_of_lt hs,
    ← Nat.shiftLeft_add_eq_or_of_lt he, Nat.shiftLeft_eq, Nat.shiftLeft_eq, signBit_eq, binade_eq]
  omega

theorem exists_fields (bits : BitVec 64) :
    ∃ sign exponent significand, bits = fields sign exponent significand :=
  ⟨_, _, _, (@packComponents_unpackSign_unpackExponent_unpackMantissa .binary64 _).symm⟩

/-- What the fields stand for: an exponent of ones is not that of a finite double. -/
theorem ofFloat_eq_finite_iff {x : Float} {sign : Sign} {exponent : BitVec 11}
    {significand : BitVec 52} (h : x.toBits.toBitVec = fields sign exponent significand)
    {negative : Bool} {rank : Nat} :
    ofFloat x = .finite negative rank ↔ exponent ≠ -1 ∧ isNegative sign = negative ∧
      exponent.toNat * binade + significand.toNat = rank := by
  have he := exponent.isLt
  have hs := significand.isLt
  have hbits : x.toBits.toNat = _ := (congrArg BitVec.toNat h).trans (toNat_fields ..)
  have hrank : x.toBits.toNat % signBit = exponent.toNat * binade + significand.toNat := by
    rw [hbits, signBit_eq, binade_eq]
    split <;> omega
  have hnegative : decide (signBit ≤ x.toBits.toNat) = isNegative sign := by
    rw [hbits, signBit_eq, binade_eq]
    cases sign with
    | negative => exact decide_eq_true (Nat.le_add_right ..)
    | positive =>
      refine decide_eq_false ?_
      show ¬ 2 ^ 63 ≤ 0 + _
      omega
  have hones : exponent ≠ -1 ↔ exponent.toNat * binade + significand.toNat < infinityRank := by
    rw [ne_eq, ← BitVec.toNat_inj, binade_eq, infinityRank_eq]
    show ¬ exponent.toNat = 2047 ↔ _
    omega
  rw [ofFloat, hrank, hnegative, hones]
  split
  · next hlt => simp [hlt]
  · next hge => split <;> simp [hge]

theorem exists_finite_fields {x : Float} {negative : Bool} {rank : Nat}
    (h : ofFloat x = .finite negative rank) : ∃ sign exponent significand,
      x.toBits.toBitVec = fields sign exponent significand ∧ exponent ≠ -1 ∧
        isNegative sign = negative ∧ exponent.toNat * binade + significand.toNat = rank := by
  obtain ⟨sign, exponent, significand, hbits⟩ := exists_fields x.toBits.toBitVec
  exact ⟨sign, exponent, significand, hbits, (ofFloat_eq_finite_iff hbits).1 h⟩

/-! ### Unpacking -/

/-- The magnitude of a significand at the exponent that its field stands for. -/
theorem mul_zpow_mul_unitsPerOne (significand exponent : Nat) :
    (significand : ℚ) * 2 ^ ((exponent : ℤ) - 1074) * unitsPerOne = (significand * 2 ^ exponent : Nat) := by
  rw [unitsPerOne_cast, mul_assoc, ← zpow_add₀ (by decide), Int.sub_add_cancel, zpow_natCast,
    Nat.cast_mul, Nat.cast_pow, Nat.cast_ofNat]

/-- What the fields of a finite double unpack to: the sign and a magnitude, that of the rank. -/
theorem unpack_fields {exponent : BitVec 11} (significand : BitVec 52) (h : exponent ≠ -1) :
    exponent.toNat * binade + significand.toNat = 0 ∧
        (∀ sign, UnpackedFloat.unpack .binary64 (fields sign exponent significand) = .zero sign) ∨
      exponent.toNat * binade + significand.toNat ≠ 0 ∧
        ∃ (m : Nat) (e : ℤ) (hm : 0 < m),
          (m : ℚ) * 2 ^ e * unitsPerOne = units (exponent.toNat * binade + significand.toNat) ∧
          ∀ sign, UnpackedFloat.unpack .binary64 (fields sign exponent significand) =
            .finite sign m e hm := by
  have hs := significand.isLt
  simp only [UnpackedFloat.unpack, fields, unpackMantissa_packComponents,
    unpackExponent_packComponents, unpackSign_packComponents, Sign.ofBitVec_toBitVec]
  simp only [if_neg (show ¬ exponent = -1#11 from h)]
  by_cases he : exponent = 0#11
  · by_cases hzero : significand = 0#52
    · left
      simp [he, hzero]
    · right
      have hne : significand.toNat ≠ 0 := fun hzero' => hzero (BitVec.eq_of_toNat_eq hzero')
      have hunits : units (exponent.toNat * binade + significand.toNat) = significand.toNat * 2 ^ 0 := by
        rw [he, BitVec.toNat_ofNat, Nat.zero_mod, Nat.zero_mul, Nat.zero_add, units_of_lt hs,
          Nat.pow_zero, Nat.mul_one]
      simp only [if_pos he, dif_neg hzero]
      refine ⟨by omega, _, _, Nat.pos_of_ne_zero hne, ?_, fun sign => rfl⟩
      rw [hunits, ← mul_zpow_mul_unitsPerOne, he]
      rfl
  · right
    obtain ⟨e, heq⟩ : ∃ e, exponent.toNat = e + 1 :=
      Nat.exists_eq_succ_of_ne_zero fun hzero => he (BitVec.eq_of_toNat_eq hzero)
    have hm : (1#1 ++ significand).toNat = binade + significand.toNat := by
      rw [BitVec.toNat_append, ← Nat.shiftLeft_add_eq_or_of_lt hs]
      rfl
    have hpos : 0 < (1#1 ++ significand).toNat := hm ▸ Nat.add_pos_left binade_pos _
    have hunits : units (exponent.toNat * binade + significand.toNat) =
        (1#1 ++ significand).toNat * 2 ^ e := by
      rw [heq, units_add_mul hs, Nat.shiftLeft_eq, hm]
    have hbias : (exponent.toNat : ℤ) - (1023 + 52 : Nat) = (e : ℤ) - 1074 := by omega
    have hmul := Nat.mul_pos (show 0 < exponent.toNat by omega) binade_pos
    simp only [if_neg he]
    refine ⟨by omega, _, _, hpos, ?_, fun sign => rfl⟩
    rw [hunits, ← mul_zpow_mul_unitsPerOne, ← hbias]
    rfl

theorem isFinite_unpack_ones (sign : Sign) (significand : BitVec 52) :
    (UnpackedFloat.unpack .binary64 (fields sign (-1) significand)).isFinite = false := by
  simp only [UnpackedFloat.unpack, fields, unpackMantissa_packComponents,
    unpackExponent_packComponents, unpackSign_packComponents]
  rw [if_pos (show (-1 : BitVec 11) = -1#11 from rfl)]
  split <;> rfl

theorem valid_fields {sign : Sign} {exponent : BitVec 11} {significand : BitVec 52}
    (h : exponent ≠ -1) : Format.binary64.Valid (fields sign exponent significand) :=
  ⟨fun hones => absurd (unpackExponent_packComponents.symm.trans hones) h⟩

theorem neg_unpack {sign : Sign} {exponent : BitVec 11} {significand : BitVec 52}
    (h : exponent ≠ -1) :
    (UnpackedFloat.unpack .binary64 (fields sign exponent significand)).neg =
      UnpackedFloat.unpack .binary64 (fields (-sign) exponent significand) := by
  rcases unpack_fields significand h with ⟨-, hzero⟩ | ⟨-, m, e, hm, -, hfinite⟩
  · rw [hzero, hzero]
    rfl
  · rw [hfinite, hfinite]
    rfl

/-! ### Floats -/

theorem ofRank_of_finite {x : Float} {rank : Nat} (h : ofFloat x = .finite false rank) :
    ofRank rank = x := by
  obtain ⟨sign, exponent, significand, hbits, -, hsign, hrank⟩ := exists_finite_fields h
  have hnat : x.toBits.toNat = rank := by
    rw [← UInt64.toNat_toBitVec, hbits, toNat_fields, hsign, hrank]
    exact Nat.zero_add rank
  rw [ofRank, ← hnat, UInt64.ofNat_toNat, Float.ofBits_toBits]

theorem toBits_ofRank {rank : Nat} (h : rank < infinityRank) : (ofRank rank).toBits.toNat = rank := by
  obtain ⟨sign, exponent, significand, hbits⟩ := exists_fields (UInt64.ofNat rank).toBitVec
  have hrank : (fields sign exponent significand).toNat = rank := by
    rw [← hbits, UInt64.toNat_toBitVec]
    exact UInt64.toNat_ofNat_of_lt (Nat.lt_trans h (by decide))
  have hfinite : exponent ≠ -1 := by
    rintro rfl
    have hones : (-1 : BitVec 11).toNat * binade = infinityRank := rfl
    rw [toNat_fields, hones] at hrank
    omega
  have hsame : (ofRank rank).toBits.toBitVec = fields sign exponent significand := by
    show UnpackedFloat.pack .binary64 (UnpackedFloat.unpack .binary64 (UInt64.ofNat rank).toBitVec) = _
    rw [hbits, pack_unpack_of_valid (valid_fields hfinite)]
  rw [← UInt64.toNat_toBitVec, hsame, hrank]

theorem ofFloat_ofRank {rank : Nat} (h : rank < infinityRank) :
    ofFloat (ofRank rank) = .finite false rank := by
  have hlt : rank < signBit := Nat.lt_trans h (by decide)
  rw [ofFloat, toBits_ofRank h, Nat.mod_eq_of_lt hlt, decide_eq_false (Nat.not_le.2 hlt)]
  exact if_pos h

/-- A finite double is its sign and its rank. -/
theorem eq_of_finite {x y : Float} {negative : Bool} {rank : Nat}
    (hx : ofFloat x = .finite negative rank) (hy : ofFloat y = .finite negative rank) : x = y := by
  obtain ⟨sign, exponent, significand, hbits, -, hsign, hrank⟩ := exists_finite_fields hx
  obtain ⟨sign', exponent', significand', hbits', -, hsign', hrank'⟩ := exists_finite_fields hy
  rw [← Float.toBits_inj, ← UInt64.toBitVec_inj, ← BitVec.toNat_inj, hbits, hbits', toNat_fields,
    toNat_fields, hsign, hsign', hrank, hrank']

theorem ofFloat_neg {x : Float} {negative : Bool} {rank : Nat}
    (h : ofFloat x = .finite negative rank) : ofFloat (-x) = .finite (!negative) rank := by
  obtain ⟨sign, exponent, significand, hbits, hfinite, rfl, hrank⟩ := exists_finite_fields h
  have hneg : (-x).toBits.toBitVec = fields (-sign) exponent significand := by
    show UnpackedFloat.pack .binary64 (UnpackedFloat.unpack .binary64 x.toBits.toBitVec).neg = _
    rw [hbits, neg_unpack hfinite, pack_unpack_of_valid (valid_fields hfinite)]
  refine (ofFloat_eq_finite_iff hneg).2 ⟨hfinite, ?_, hrank⟩
  cases sign <;> rfl

theorem neg_neg_of_isFinite {x : Float} (h : IsFinite x) : - -x = x := by
  obtain ⟨negative, rank, hx⟩ := h
  have hneg := ofFloat_neg (ofFloat_neg hx)
  rw [Bool.not_not] at hneg
  exact eq_of_finite hneg hx

/-- To be finite is not to be infinite or NaN when unpacked. -/
theorem isFinite_iff {x : Float} : x.isFinite = true ↔ IsFinite x := by
  obtain ⟨sign, exponent, significand, hbits⟩ := exists_fields x.toBits.toBitVec
  have hmodel : x.isFinite =
      (UnpackedFloat.unpack .binary64 (fields sign exponent significand)).isFinite := by
    rw [← hbits]
    rfl
  constructor
  · intro h
    have hfinite : exponent ≠ -1 := by
      rintro rfl
      rw [hmodel, isFinite_unpack_ones] at h
      contradiction
    exact ⟨_, _, (ofFloat_eq_finite_iff hbits).2 ⟨hfinite, rfl, rfl⟩⟩
  · rintro ⟨negative, rank, h⟩
    obtain ⟨hfinite, -, -⟩ := (ofFloat_eq_finite_iff hbits).1 h
    rw [hmodel]
    rcases unpack_fields significand hfinite with ⟨-, hzero⟩ | ⟨-, m, e, hm, -, hfinite⟩
    · rw [hzero]
      rfl
    · rw [hfinite]
      rfl

theorem unpack_zero : (0 : Float).toModel.unpack = .zero .positive := rfl

/-- What a finite double unpacks to: a zero, or the magnitude at its rank. -/
theorem unpack_of_finite {x : Float} {negative : Bool} {rank : Nat}
    (h : ofFloat x = .finite negative rank) : ∃ sign, isNegative sign = negative ∧
      (rank = 0 ∧ x.toModel.unpack = .zero sign ∨
        rank ≠ 0 ∧ ∃ (m : Nat) (e : ℤ) (hm : 0 < m), (m : ℚ) * 2 ^ e * unitsPerOne = units rank ∧
          x.toModel.unpack = .finite sign m e hm) := by
  obtain ⟨sign, exponent, significand, hbits, hfinite, hsign, rfl⟩ := exists_finite_fields h
  have hmodel : x.toModel.unpack =
      UnpackedFloat.unpack .binary64 (fields sign exponent significand) := by
    rw [← hbits]
    rfl
  refine ⟨sign, hsign, ?_⟩
  rw [hmodel]
  rcases unpack_fields significand hfinite with ⟨hrank, hzero⟩ | ⟨hrank, m, e, hm, hunits, hfinite⟩
  · exact .inl ⟨hrank, hzero sign⟩
  · exact .inr ⟨hrank, m, e, hm, hunits, hfinite sign⟩

/-- By the sign, but no zero is below zero. -/
theorem lt_zero_iff {x : Float} {negative : Bool} {rank : Nat}
    (h : ofFloat x = .finite negative rank) : x < 0 ↔ negative = true ∧ rank ≠ 0 := by
  obtain ⟨sign, hsign, hunpack⟩ := unpack_of_finite h
  show x.lt 0 = true ↔ _
  rw [Float.lt, decide_eq_true_eq]
  show UnpackedFloat.lt x.toModel.unpack (0 : Float).toModel.unpack = true ↔ _
  rw [unpack_zero]
  rcases hunpack with ⟨hrank, hzero⟩ | ⟨hrank, m, e, hm, -, hfinite⟩
  · simp [hzero, hrank, UnpackedFloat.lt, UnpackedFloat.compare]
  · cases sign <;> simp [hfinite, ← hsign, hrank, isNegative, UnpackedFloat.lt, UnpackedFloat.compare]

theorem zero_le_iff {x : Float} {negative : Bool} {rank : Nat}
    (h : ofFloat x = .finite negative rank) : 0 ≤ x ↔ negative = false ∨ rank = 0 := by
  obtain ⟨sign, hsign, hunpack⟩ := unpack_of_finite h
  show Float.le 0 x = true ↔ _
  rw [Float.le, decide_eq_true_eq]
  show UnpackedFloat.le (0 : Float).toModel.unpack x.toModel.unpack = true ↔ _
  rw [unpack_zero]
  rcases hunpack with ⟨hrank, hzero⟩ | ⟨hrank, m, e, hm, -, hfinite⟩
  · simp [hzero, hrank, UnpackedFloat.le, UnpackedFloat.compare]
  · cases sign <;> simp [hfinite, ← hsign, hrank, isNegative, UnpackedFloat.le, UnpackedFloat.compare]

/-! ### Signs -/

theorem ofFloat_zero : ofFloat 0 = .finite false 0 := by decide

theorem ofFloat_neg_zero : ofFloat (-0.0) = .finite true 0 := by decide

/-- Below zero, the negative zero, or without a sign. -/
theorem isFinite_cases {x : Float} (h : IsFinite x) :
    (∃ rank, ofFloat x = .finite true rank ∧ rank ≠ 0) ∨ x = -0.0 ∨
      ∃ rank, ofFloat x = .finite false rank := by
  obtain ⟨negative, rank, hx⟩ := h
  cases negative with
  | true =>
    by_cases hzero : rank = 0
    · exact .inr (.inl (eq_of_finite (hzero ▸ hx) ofFloat_neg_zero))
    · exact .inl ⟨rank, hx, hzero⟩
  | false => exact .inr (.inr ⟨rank, hx⟩)

theorem ne_neg_zero_of_finite {x : Float} {rank : Nat} (h : ofFloat x = .finite false rank) :
    x ≠ -0.0 := by
  intro heq
  rw [heq, ofFloat_neg_zero] at h
  injections

/-- To have no sign, said by comparison. -/
theorem exists_rank_iff {x : Float} (h : IsFinite x) :
    (∃ rank, ofFloat x = .finite false rank) ↔ 0 ≤ x ∧ x ≠ -0.0 := by
  constructor
  · rintro ⟨rank, hx⟩
    exact ⟨(zero_le_iff hx).2 (.inl rfl), ne_neg_zero_of_finite hx⟩
  · rintro ⟨hle, hne⟩
    rcases isFinite_cases h with ⟨rank, hx, hpos⟩ | heq | hx
    · rcases (zero_le_iff hx).1 hle with hsign | hzero
      · contradiction
      · exact absurd hzero hpos
    · contradiction
    · exact hx

end Calculator.Binary64
