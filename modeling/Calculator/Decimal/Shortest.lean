import Calculator.Decimal

/-! The shortest decimal that reads back as a given double.

Every finite double is a whole number of `10 ^ -1074`, so a candidate decimal and
the midpoints to the neighbouring doubles compare as whole numbers. The grids of
one digit, two digits and so on are tried in turn; on each, only the two grid
points next to the double can read back if any does. -/
namespace Calculator.Decimal
open Binary64

/-- The magnitude at a rank, in units of `10 ^ -1074`. -/
def exactUnits (rank : Nat) : Nat :=
  units rank * Nat.pow 5 1074

/-- Whether `n * 10 ^ -1074` is nearest to the double of this rank. The midpoints to its
neighbours belong to it when its rank is even. -/
def ReadsBack (rank n : Nat) : Prop :=
  let below := exactUnits (rank - 1) + exactUnits rank
  let above := exactUnits rank + exactUnits (rank + 1)
  if rank % 2 = 0 then below ≤ 2 * n ∧ 2 * n ≤ above else below < 2 * n ∧ 2 * n < above

instance (rank n : Nat) : Decidable (ReadsBack rank n) := by
  unfold ReadsBack
  infer_instance

/-- The multiple of `step` nearest to the double among its two neighbours that read back,
counted in steps; of two equally near, the even one. -/
def multiple? (rank step : Nat) : Option Nat :=
  let down := exactUnits rank / step
  let remainder := exactUnits rank % step
  let nearer := 2 * remainder < step ∨ 2 * remainder = step ∧ down % 2 = 0
  if ReadsBack rank (down * step) ∧ (nearer ∨ ¬ ReadsBack rank ((down + 1) * step)) then some down
  else if ReadsBack rank ((down + 1) * step) then some (down + 1)
  else none

/-- How many digits it takes to write the magnitude out in full. -/
def exactLength (rank : Nat) : Nat :=
  (Nat.toDigits 10 (exactUnits rank)).length

/-- A decimal that reads back whose first digit is that of the magnitude and whose last counts
`10 ^ place` of its units. -/
def atPlace? (rank place : Nat) : Option Decimal :=
  (multiple? rank (powerOfTen place)).map fun n => ⟨n, place - 1074⟩

/-- The decimal of fewest digits that reads back, and of those the nearest. Written out in
full every double reads back, so the search ends with an answer. -/
def shortest (rank : Nat) : Decimal :=
  if rank = 0 then ⟨0, 0⟩
  else
    let length := exactLength rank
    ((List.range length).findSome? fun i => atPlace? rank (length - 1 - i)).getD
      ⟨exactUnits rank, -1074⟩

end Calculator.Decimal
