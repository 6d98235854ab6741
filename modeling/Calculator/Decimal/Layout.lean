import Calculator.Decimal

/-! Ways to write a decimal out.

A layout says which magnitudes are written positionally, with a point among the
digits and always a digit after it, and how the others carry their exponent. -/
namespace Calculator.Decimal

structure Layout where
  /-- The least leading exponent that is written positionally. -/
  leastPositional : Int
  /-- The least leading exponent above those that is not. -/
  leastScientific : Int
  /-- An exponent of fewer digits is filled up with zeros. -/
  exponentDigits : Nat

/-- Digits with a point after the units, the first digit counting `10 ^ leading`. -/
def positional (digits : List Char) : (leading : Int) → List Char
  | .ofNat e =>
    let fraction := digits.drop (e + 1)
    (digits.take (e + 1)).rightpad (e + 1) '0' ++
      '.' :: (if fraction = [] then ['0'] else fraction)
  | .negSucc e => '0' :: '.' :: (List.replicate e '0' ++ digits)

/-- Digits with a point after the first, if more follow, and the exponent with its sign. -/
def scientific (exponentDigits : Nat) (digits : List Char) (leading : Int) : List Char :=
  let fraction := digits.drop 1
  digits.take 1 ++ (if fraction = [] then [] else '.' :: fraction) ++
    'e' :: (if leading < 0 then '-' else '+') ::
      (Nat.toDigits 10 leading.natAbs).leftpad exponentDigits '0'

def Layout.write (layout : Layout) (d : Decimal) : List Char :=
  if layout.leastPositional ≤ d.leadingExponent ∧ d.leadingExponent < layout.leastScientific then
    positional d.significantDigits d.leadingExponent
  else
    scientific layout.exponentDigits d.significantDigits d.leadingExponent

end Calculator.Decimal
