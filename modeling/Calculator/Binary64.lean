/-! Doubles as ranked magnitudes.

Below the sign, the bits of a double count its magnitude upwards from zero: in
equal steps of `2 ^ -1074` through the first two binades, then in steps twice as
wide with every binade, up to the rank of infinity and, past it, the NaNs.
`ofFloat` reads a double that way and `units` gives the magnitude at a rank
exactly, as a whole number of `2 ^ -1074`. -/
namespace Calculator

/-- What a double stands for. -/
inductive Binary64 where
  | nan
  | infinite (negative : Bool)
  /-- A finite double; zeros are the two of rank zero. -/
  | finite (negative : Bool) (rank : Nat)
deriving DecidableEq, Repr

namespace Binary64

/-- How many magnitudes share an exponent: `2 ^ 52`. -/
def binade : Nat := 1 <<< 52

/-- The bit that negative doubles have and others have not. -/
def signBit : Nat := 1 <<< 63

/-- The finite magnitudes are those of the ranks below this one. -/
def infinityRank : Nat := 2047 * binade

def ofFloat (x : Float) : Binary64 :=
  let negative := decide (signBit ≤ x.toBits.toNat)
  let rank := x.toBits.toNat % signBit
  if rank < infinityRank then .finite negative rank
  else if rank = infinityRank then .infinite negative
  else .nan

/-- The nonnegative double of a rank up to that of infinity. -/
def ofRank (rank : Nat) : Float :=
  Float.ofBits (UInt64.ofNat rank)

/-- The magnitude at a rank, in units of `2 ^ -1074`. -/
def units (rank : Nat) : Nat :=
  if rank < binade then rank
  else (binade + rank % binade) <<< (rank / binade - 1)

/-- How many units make one. -/
def unitsPerOne : Nat := 1 <<< 1074

def IsFinite (x : Float) : Prop :=
  ∃ negative rank, ofFloat x = .finite negative rank

theorem binade_pos : 0 < binade := by decide

theorem units_of_lt {rank : Nat} (h : rank < binade) : units rank = rank :=
  if_pos h

/-- The first binade past the smallest doubles goes on in the same steps, and every later one
in steps twice as wide as the one before. -/
theorem units_add_mul {significand exponent : Nat} (h : significand < binade) :
    units ((exponent + 1) * binade + significand) = (binade + significand) <<< exponent := by
  have hge : ¬ (exponent + 1) * binade + significand < binade := by
    rw [Nat.succ_mul]
    omega
  have hmod : ((exponent + 1) * binade + significand) % binade = significand := by
    rw [Nat.mul_add_mod_self_right, Nat.mod_eq_of_lt h]
  have hdiv : ((exponent + 1) * binade + significand) / binade = exponent + 1 := by
    rw [Nat.add_comm, Nat.add_mul_div_right _ _ binade_pos, Nat.div_eq_of_lt h, Nat.zero_add]
  rw [units, if_neg hge, hmod, hdiv, Nat.add_sub_cancel]

theorem rank_lt_of_ofFloat {x : Float} {negative : Bool} {rank : Nat}
    (h : ofFloat x = .finite negative rank) : rank < infinityRank := by
  unfold ofFloat at h
  dsimp only at h
  split at h
  · injection h with _ hr
    omega
  · split at h <;> contradiction

end Binary64
end Calculator
