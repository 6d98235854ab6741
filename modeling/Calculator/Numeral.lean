import Calculator.Decimal.Shortest
import Calculator.Decimal.Layout

/-! Numerals: the text of a double.

A floating numeral has the fewest digits that read back and always shows a
fraction or an exponent. A canonical numeral writes a whole number as the exact
integer, in full, and anything else as the floating numeral. -/
namespace Calculator.Numeral
open Binary64

/-- Positional from `0.0001` up to below `10 ^ 16`; two digits of exponent at least. -/
def layout : Decimal.Layout where
  leastPositional := -4
  leastScientific := 16
  exponentDigits := 2

def sign (negative : Bool) : String :=
  if negative then "-" else ""

def floating (x : Float) : String :=
  match ofFloat x with
  | .nan => "nan"
  | .infinite negative => sign negative ++ "inf"
  | .finite negative rank =>
    sign negative ++ String.ofList (layout.write (Decimal.shortest rank))

/-- Zero has no sign here. -/
def integer (negative : Bool) (n : Nat) : String :=
  sign (negative && n != 0) ++ toString n

def canonical (x : Float) : String :=
  match ofFloat x with
  | .finite negative rank =>
    if units rank % unitsPerOne = 0 then integer negative (units rank / unitsPerOne)
    else floating x
  | _ => floating x

theorem canonical_eq_floating {x : Float} (h : ¬ IsFinite x) : canonical x = floating x := by
  unfold canonical
  split
  · next negative rank hx => exact absurd ⟨negative, rank, hx⟩ h
  · rfl

end Calculator.Numeral
