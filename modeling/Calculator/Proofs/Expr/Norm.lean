import Calculator.Proofs.Binary64.Float
import Calculator.Proofs.Expr.Value

/-! Trees without signed constants.

A numeral has no sign, so a negative constant is written with a minus in front and is
read as that sign applied to its opposite; the negative zero is written without one.
`norm` makes this of a tree. It changes nothing exactly if no constant is negative or
the negative zero (`norm_eq_self_iff`), and no value as long as there is no negative
zero, in any arithmetic where minus is the opposite (`value_norm`). -/
namespace Calculator

/-- What minus is worth is the opposite. -/
def Arithmetic.Negates (arithmetic : Arithmetic) : Prop :=
  ∀ x, arithmetic.unary .minus x = -x

theorem Arithmetic.negates_ieee : Arithmetic.ieee.Negates := fun _ => rfl

namespace Expr
open Binary64

/-- What a constant reads back as. -/
def numeral (x : Float) : Expr :=
  if x < 0 then .unary .minus (.constant (-x))
  else if x = -0.0 then .constant 0
  else .constant x

/-- The tree without signed constants. -/
def norm : Expr → Expr
  | .constant x => numeral x
  | .unary op e => .unary op e.norm
  | .binary op l r => .binary op l.norm r.norm
  | .foreign text => .foreign text

/-- The constants, from left to right. -/
def constants : Expr → List Float
  | .constant x => [x]
  | .unary _ e => e.constants
  | .binary _ l r => l.constants ++ r.constants
  | .foreign _ => []

/-! ### Constants -/

theorem numeral_of_negative {x : Float} {rank : Nat} (h : ofFloat x = .finite true rank)
    (hne : rank ≠ 0) : numeral x = .unary .minus (.constant (-x)) :=
  if_pos ((lt_zero_iff h).2 ⟨rfl, hne⟩)

theorem numeral_neg_zero : numeral (-0.0) = .constant 0 := by
  have hnot : ¬ (-0.0 : Float) < 0 := by simp [lt_zero_iff ofFloat_neg_zero]
  rw [numeral, if_neg hnot, if_pos rfl]

theorem numeral_of_unsigned {x : Float} {rank : Nat} (h : ofFloat x = .finite false rank) :
    numeral x = .constant x := by
  have hnot : ¬ x < 0 := by simp [lt_zero_iff h]
  rw [numeral, if_neg hnot, if_neg (ne_neg_zero_of_finite h)]

theorem numeral_eq_constant_iff {x : Float} (h : IsFinite x) :
    numeral x = .constant x ↔ 0 ≤ x ∧ x ≠ -0.0 := by
  rw [← exists_rank_iff h]
  rcases isFinite_cases h with ⟨rank, hx, hne⟩ | rfl | ⟨rank, hx⟩
  · simp [numeral_of_negative hx hne, hx]
  · have hchanged : numeral (-0.0) ≠ .constant (-0.0) := by
      rw [numeral_neg_zero]
      decide
    exact iff_of_false hchanged fun ⟨rank, hx⟩ => ne_neg_zero_of_finite hx rfl
  · simp [numeral_of_unsigned hx, hx]

/-- The sign put in front makes up for the opposite taken. -/
theorem value_numeral {arithmetic : Arithmetic} (hnegates : arithmetic.Negates) {x : Float}
    (h : IsFinite x) (hne : x ≠ -0.0) : (numeral x).value arithmetic = .ok x := by
  rcases isFinite_cases h with ⟨rank, hx, hrank⟩ | heq | ⟨rank, hx⟩
  · rw [numeral_of_negative hx hrank]
    exact congrArg Except.ok ((hnegates (-x)).trans (neg_neg_of_isFinite h))
  · contradiction
  · rw [numeral_of_unsigned hx]
    rfl

theorem value_numeral_neg_zero : (numeral (-0.0)).value .ieee = .ok 0 := by
  rw [numeral_neg_zero]
  rfl

theorem isGenuine_numeral (x : Float) : (numeral x).IsGenuine := by
  unfold numeral
  split
  · trivial
  · split <;> trivial

/-! ### Trees -/

theorem norm_eq_self_iff {e : Expr} (hfinite : ∀ x ∈ e.constants, IsFinite x) :
    e.norm = e ↔ ∀ x ∈ e.constants, 0 ≤ x ∧ x ≠ -0.0 := by
  induction e with
  | constant x =>
    simp only [constants, List.forall_mem_singleton] at hfinite ⊢
    exact numeral_eq_constant_iff hfinite
  | unary op e ih => simpa [norm, constants] using ih hfinite
  | binary op l r ihl ihr =>
    simp only [constants, List.forall_mem_append] at hfinite ⊢
    rw [← ihl hfinite.1, ← ihr hfinite.2]
    simp [norm]
  | foreign text => simp [norm, constants]

theorem value_norm {arithmetic : Arithmetic} (hnegates : arithmetic.Negates) {e : Expr}
    (hfinite : ∀ x ∈ e.constants, IsFinite x) (hzero : ∀ x ∈ e.constants, x ≠ -0.0) :
    e.norm.value arithmetic = e.value arithmetic := by
  induction e with
  | constant x =>
    exact value_numeral hnegates (hfinite x (by simp [constants])) (hzero x (by simp [constants]))
  | unary op e ih => rw [norm, value, value, ih hfinite hzero]
  | binary op l r ihl ihr =>
    simp only [constants, List.forall_mem_append] at hfinite hzero
    rw [norm, value, value, ihl hfinite.1 hzero.1, ihr hfinite.2 hzero.2]
  | foreign text => rfl

theorem isGenuine_norm {e : Expr} (h : e.IsGenuine) : e.norm.IsGenuine := by
  induction e with
  | constant x => exact isGenuine_numeral x
  | unary op e ih => exact ih h
  | binary op l r ihl ihr => exact ⟨ihl h.1, ihr h.2⟩
  | foreign text => exact h

end Expr
end Calculator
