import Calculator.Binary64.Rounding

/-! Decimals: a whole coefficient and a power of ten.

A number literal denotes one, and the text of a double is made from one. `toFloat`
rounds a decimal to the nearest double, for coefficients and exponents of any size. -/
namespace Calculator

/-- `coefficient * 10 ^ exponent`. -/
structure Decimal where
  coefficient : Nat
  exponent : Int
deriving DecidableEq, Repr

namespace Decimal
open Binary64

def powerOfTen (k : Nat) : Nat := Nat.pow 10 k

/-- The rank of the nearest double.

The two cut-offs keep the powers of ten small and change nothing: `10 ^ 309` is beyond
the largest double, and as `8 ^ k < 10 ^ k`, a coefficient below `2 ^ (3 * k - 1075)`
stays below half a unit when divided by `10 ^ k`. -/
def rank (d : Decimal) : Nat :=
  if d.coefficient = 0 then 0
  else match d.exponent with
    | .ofNat k =>
      if 309 ≤ k then infinityRank
      else nearestRank (d.coefficient * powerOfTen k * unitsPerOne) 1
    | .negSucc k =>
      if d.coefficient.log2 + 1076 ≤ 3 * (k + 1) then 0
      else nearestRank (d.coefficient * unitsPerOne) (powerOfTen (k + 1))

/-- The nearest double, ties to even. -/
def toFloat (d : Decimal) : Float :=
  ofRank d.rank

/-- The digits of the coefficient, without the zeros at its end: none for zero. -/
def significantDigits (d : Decimal) : List Char :=
  ((Nat.toDigits 10 d.coefficient).reverse.dropWhile (· == '0')).reverse

/-- The power of ten that the coefficient's first digit counts. -/
def leadingExponent (d : Decimal) : Int :=
  d.exponent + ((Nat.toDigits 10 d.coefficient).length - 1 : Nat)

theorem rank_le (d : Decimal) : d.rank ≤ infinityRank := by
  unfold rank
  split
  · exact Nat.zero_le _
  · split
    · split
      · exact Nat.le_refl _
      · exact nearestRank_le _ _
    · split
      · exact Nat.zero_le _
      · exact nearestRank_le _ _

end Decimal
end Calculator
