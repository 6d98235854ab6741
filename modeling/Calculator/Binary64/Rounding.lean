import Calculator.Binary64

/-! Rounding to the nearest double.

An exact nonnegative fraction of units is rounded to the nearest rank, ties to
the even one. The step at the fraction's own magnitude is found first; rounding
the fraction to a whole number of steps then gives the rank directly, because a
significand that rounds up past its last value is the first of the next
exponent, in rank as in magnitude. -/
namespace Calculator.Binary64

/-- `numerator / denominator` to the nearest whole number, a half to the even one. -/
def roundHalfEven (numerator denominator : Nat) : Nat :=
  let quotient := numerator / denominator
  let remainder := numerator % denominator
  if 2 * remainder < denominator ∨ 2 * remainder = denominator ∧ quotient % 2 = 0 then quotient
  else quotient + 1

/-- The rank nearest to `numerator / denominator` units. Half a step past the largest
finite magnitude the rank is that of infinity. -/
def nearestRank (numerator denominator : Nat) : Nat :=
  let exponent := Nat.log2 (numerator / denominator) - 52
  min infinityRank (exponent * binade + roundHalfEven numerator (denominator <<< exponent))

theorem nearestRank_le (numerator denominator : Nat) :
    nearestRank numerator denominator ≤ infinityRank :=
  Nat.min_le_left ..

/-- The result is never further than half away. -/
theorem roundHalfEven_near (numerator : Nat) {denominator : Nat} (h : 0 < denominator) :
    2 * numerator ≤ (2 * roundHalfEven numerator denominator + 1) * denominator ∧
      2 * roundHalfEven numerator denominator * denominator ≤ 2 * numerator + denominator := by
  have hdiv := Nat.div_add_mod numerator denominator
  have hmod := Nat.mod_lt numerator h
  simp only [roundHalfEven]
  generalize numerator / denominator = q at hdiv ⊢
  generalize numerator % denominator = r at hdiv hmod ⊢
  have hq : q * denominator = denominator * q := Nat.mul_comm ..
  split
  · rw [Nat.add_mul, Nat.mul_assoc, hq]
    omega
  · rw [Nat.add_mul, Nat.mul_add, Nat.add_mul, Nat.mul_assoc, hq]
    omega

end Calculator.Binary64
