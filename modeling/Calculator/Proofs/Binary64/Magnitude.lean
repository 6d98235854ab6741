import Calculator.Binary64
import Mathlib.Order.Monotone.Basic
import Mathlib.Tactic.Ring

/-! The magnitudes of doubles.

Every rank lies in a run of equal steps: it is a significand counted from the run's
start, and its magnitude is that many steps (`units_mul_add`). Both ends of a run belong
to it, since the last significand of one run is the first of the next. So one rank
further is one step further or a wider one, and magnitudes grow with the rank. -/
namespace Calculator.Binary64

/-- A significand up to twice the smallest of its exponent is so many steps. -/
theorem units_mul_add {significand exponent : Nat} (hle : significand ≤ 2 * binade)
    (hge : exponent = 0 ∨ binade ≤ significand) :
    units (exponent * binade + significand) = significand * 2 ^ exponent := by
  by_cases hsmall : significand < binade
  · have hzero : exponent = 0 := by omega
    rw [hzero, Nat.zero_mul, Nat.zero_add, units_of_lt hsmall, Nat.pow_zero, Nat.mul_one]
  · obtain ⟨s, rfl⟩ : ∃ s, significand = binade + s := ⟨significand - binade, by omega⟩
    rw [← Nat.add_assoc, ← Nat.succ_mul]
    by_cases hlast : s < binade
    · rw [units_add_mul hlast, Nat.shiftLeft_eq]
    · obtain rfl : s = binade := by omega
      rw [← Nat.succ_mul, ← Nat.add_zero ((exponent + 1).succ * binade), units_add_mul binade_pos,
        Nat.shiftLeft_eq]
      ring

/-- The run of steps a rank lies in. -/
theorem exists_exponent (rank : Nat) : ∃ exponent significand,
    rank = exponent * binade + significand ∧ significand < 2 * binade ∧
      (exponent = 0 ∨ binade ≤ significand) := by
  by_cases h : rank < binade
  · exact ⟨0, rank, by simp, by omega, .inl rfl⟩
  · have hpos := binade_pos
    have hmod := Nat.mod_lt rank hpos
    have hdiv := Nat.div_add_mod rank binade
    obtain ⟨e, he⟩ : ∃ e, rank / binade = e + 1 :=
      ⟨rank / binade - 1, by have := Nat.div_pos (Nat.not_lt.1 h) hpos; omega⟩
    rw [he, Nat.mul_comm, Nat.succ_mul] at hdiv
    exact ⟨e, binade + rank % binade, by omega, by omega, .inr (by omega)⟩

theorem units_lt_units_succ (rank : Nat) : units rank < units (rank + 1) := by
  obtain ⟨exponent, significand, rfl, hlt, hge⟩ := exists_exponent rank
  rw [Nat.add_assoc, units_mul_add (Nat.le_of_lt hlt) hge, units_mul_add (by omega) (by omega)]
  exact Nat.mul_lt_mul_of_pos_right (Nat.lt_succ_self _) (Nat.two_pow_pos _)

theorem units_strictMono : StrictMono units := strictMono_nat_of_lt_succ units_lt_units_succ

theorem units_zero : units 0 = 0 := units_of_lt binade_pos

theorem units_pos {rank : Nat} (h : rank ≠ 0) : 0 < units rank := by
  rw [← units_zero]
  exact units_strictMono (Nat.pos_of_ne_zero h)

end Calculator.Binary64
