import Calculator.Numeral
import Calculator.Proofs.Binary64.Float
import Calculator.Proofs.Decimal.Layout
import Calculator.Proofs.Token.Lexeme

/-! Numerals read back.

A canonical numeral of a double that is not negative spells a number nearest to it, so
the token read where it stands is that double (`read?_canonical`). A negative double is
written as a minus sign and the numeral of its opposite, and the negative zero as `0`. -/
namespace Calculator
open Binary64 Literal

namespace Token

/-- A text that spells a number is read as the nearest double. -/
theorem read?_of_spells {text rest : List Char} {value : ℚ} {rank : Nat} (hspells : Spells text value)
    (hnear : IsNearest rank (value * unitsPerOne)) (hrest : Ends rest) :
    read? (text ++ rest) = some (.number (ofRank rank), rest) := by
  obtain ⟨c, hc, hdigit⟩ := hspells.begins
  obtain ⟨l, hl, hvalue⟩ := hspells.reads rest hrest
  obtain ⟨cs, rfl⟩ : ∃ cs, text = c :: cs := by
    cases text with
    | nil => contradiction
    | cons d cs =>
      cases hc
      exact ⟨cs, rfl⟩
  have hrank : l.toDecimal.rank = rank := by
    apply Decimal.rank_eq_of_isNearest
    rwa [Decimal.inUnits, hvalue]
  rw [List.cons_append] at hl ⊢
  rw [read?_of_begins (.inl hdigit), hl]
  exact congrArg (fun r => some (Token.number (ofRank r), rest)) hrank

end Token

namespace Numeral

theorem spells_toString (n : Nat) : Spells (toString n).toList n := by
  have htext : (toString n).toList = Nat.toDigits 10 n ++ pointed [] := by
    rw [pointed, if_pos rfl, List.append_nil]
    exact Nat.toList_repr
  have hvalue : (toDecimal ⟨Nat.toDigits 10 n, [], 0⟩).value = n := by
    simp [toDecimal, Decimal.value]
  rw [htext, ← hvalue]
  exact .plain (areDigits_toDigits n) Nat.toDigits_ne_nil areDigits_nil

/-- A whole number, if the magnitude is one. -/
theorem isNearest_whole {rank : Nat} (hrank : rank < infinityRank)
    (hwhole : units rank % unitsPerOne = 0) :
    IsNearest rank ((units rank / unitsPerOne : Nat) * unitsPerOne) := by
  have hmul := Nat.div_mul_cancel (Nat.dvd_of_mod_eq_zero hwhole)
  have hunits := isNearest_units hrank
  rw [← hmul] at hunits
  exact_mod_cast hunits

theorem coefficient_shortest_ne_zero {rank : Nat} (hrank : rank < infinityRank) (hne : rank ≠ 0) :
    (Decimal.shortest rank).coefficient ≠ 0 := by
  intro hzero
  have hself := Decimal.rank_shortest hrank
  rw [Decimal.rank, if_pos hzero] at hself
  exact hne hself.symm

theorem spells_canonical {x : Float} {rank : Nat} (h : ofFloat x = .finite false rank) :
    ∃ value, Spells (canonical x).toList value ∧ IsNearest rank (value * unitsPerOne) := by
  have hrank := rank_lt_of_ofFloat h
  simp only [canonical, h]
  split
  · next hwhole =>
    refine ⟨_, ?_, isNearest_whole hrank hwhole⟩
    have htext : integer false (units rank / unitsPerOne) = toString (units rank / unitsPerOne) :=
      String.empty_append
    rw [htext]
    exact spells_toString _
  · next hwhole =>
    have hne : rank ≠ 0 := by
      intro hzero
      rw [hzero, units_zero] at hwhole
      exact hwhole (Nat.zero_mod _)
    have htext : (floating x).toList = layout.write (Decimal.shortest rank) := by
      simp only [floating, h]
      rw [String.toList_append, String.toList_ofList]
      rfl
    rw [htext]
    refine ⟨_, Decimal.spells_write layout (coefficient_shortest_ne_zero hrank hne), ?_⟩
    have hnear := (Decimal.shortest rank).isNearest_rank
    rwa [Decimal.rank_shortest hrank] at hnear

theorem read?_canonical {x : Float} {rank : Nat} (h : ofFloat x = .finite false rank)
    {rest : List Char} (hrest : Ends rest) :
    Token.read? ((canonical x).toList ++ rest) = some (.number x, rest) := by
  obtain ⟨value, hspells, hnear⟩ := spells_canonical h
  rw [Token.read?_of_spells hspells hnear hrest, ofRank_of_finite h]

theorem canonical_of_neg {x : Float} {rank : Nat} (h : ofFloat x = .finite true rank)
    (hne : rank ≠ 0) : canonical x = "-" ++ canonical (-x) := by
  have hneg : ofFloat (-x) = .finite false rank := ofFloat_neg h
  simp only [canonical, floating, h, hneg]
  split
  · next hwhole =>
    have hpos := units_pos hne
    have hsome : units rank / unitsPerOne ≠ 0 := by
      have hmul := Nat.div_mul_cancel (Nat.dvd_of_mod_eq_zero hwhole)
      intro hzero
      rw [hzero, Nat.zero_mul] at hmul
      omega
    simp [integer, sign, hsome]
  · simp [sign]

theorem canonical_neg_zero : canonical (-0.0) = canonical 0 := by
  simp only [canonical, ofFloat_neg_zero, ofFloat_zero, units_zero, Nat.zero_mod, Nat.zero_div, if_true]
  rfl

end Numeral
end Calculator
