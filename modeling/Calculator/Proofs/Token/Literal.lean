import Calculator.Proofs.Decimal.Value
import Calculator.Text.Blank
import Calculator.Token.Literal

/-! Literals that stand in a text.

Reading a literal stops where it ends, whatever follows, as long as that would not
carry the literal on (`Ends`). A text that `Spells` a number is read as a literal of
that value there: digits, perhaps with a point and more digits, perhaps with an
exponent. -/
namespace Calculator.Literal
open Text

/-- A rest that no literal goes on into. -/
def Ends (rest : List Char) : Prop :=
  ∀ c ∈ rest.head?, c.isDigit = false ∧ c ≠ '.' ∧ c ≠ 'e' ∧ c ≠ 'E'

theorem ends_nil : Ends [] := fun _ h => by contradiction

theorem ends_blank {c : Char} (h : isBlank c = true) (rest : List Char) : Ends (c :: rest) := by
  intro d hd
  cases hd
  refine ⟨Bool.eq_false_iff.2 fun hdigit => ?_, ?_, ?_, ?_⟩
  · rw [isBlank_of_isDigit hdigit] at h
    contradiction
  all_goals
    intro heq
    rw [heq] at h
    contradiction

theorem ends_closeParen (rest : List Char) : Ends (')' :: rest) := by
  intro c hc
  cases hc
  decide

def AreDigits (cs : List Char) : Prop := ∀ c ∈ cs, c.isDigit = true

instance (cs : List Char) : Decidable (AreDigits cs) :=
  decidable_of_iff (cs.all Char.isDigit = true) List.all_eq_true

theorem areDigits_nil : AreDigits [] := fun _ h => by contradiction

theorem areDigits_replicate_zero (n : Nat) : AreDigits (List.replicate n '0') := by
  intro c hc
  rw [List.eq_of_mem_replicate hc]
  rfl

theorem areDigits_toDigits (n : Nat) : AreDigits (Nat.toDigits 10 n) := fun _ hc =>
  Nat.isDigit_of_mem_toDigits (by decide) (by decide) hc

/-- A point and the digits after it; without digits no point. -/
def pointed (fraction : List Char) : List Char :=
  if fraction = [] then [] else '.' :: fraction

/-! ### Parts of a literal -/

theorem readDigits_append {digits rest : List Char} (hdigits : AreDigits digits)
    (hrest : ∀ c ∈ rest.head?, c.isDigit = false) : readDigits (digits ++ rest) = (digits, rest) := by
  have hnone : rest.takeWhile Char.isDigit = [] ∧ rest.dropWhile Char.isDigit = rest := by
    cases rest with
    | nil => exact ⟨rfl, rfl⟩
    | cons c cs => simp [hrest c rfl]
  rw [readDigits, List.takeWhile_append_of_pos hdigits, List.dropWhile_append_of_pos hdigits,
    hnone.1, hnone.2, List.append_nil]

theorem readFraction_pointed {fraction rest : List Char} (hdigits : AreDigits fraction)
    (hrest : ∀ c ∈ rest.head?, c.isDigit = false ∧ c ≠ '.') :
    readFraction (pointed fraction ++ rest) = (fraction, rest) := by
  unfold pointed
  split
  · next hnil =>
    rw [hnil, List.nil_append]
    unfold readFraction
    split
    · exact absurd rfl (hrest '.' (by simp)).2
    · rfl
  · exact readDigits_append hdigits fun c hc => (hrest c hc).1

theorem readExponent_of_ends {rest : List Char} (hrest : Ends rest) : readExponent rest = (0, rest) := by
  unfold readExponent
  split
  · exact absurd rfl (hrest 'e' (by simp)).2.2.1
  · exact absurd rfl (hrest 'E' (by simp)).2.2.2
  · rfl

/-- A written exponent with its sign. -/
theorem readExponent_written {exponent : Int} {digits rest : List Char} (hdigits : AreDigits digits)
    (hne : digits ≠ []) (hvalue : Nat.ofDigitChars 10 digits 0 = exponent.natAbs) (hrest : Ends rest) :
    readExponent ('e' :: (if exponent < 0 then '-' else '+') :: (digits ++ rest)) =
      (exponent, rest) := by
  have hnat : readNat? (digits ++ rest) = some (exponent.natAbs, rest) := by
    rw [readNat?, readDigits_append hdigits fun c hc => (hrest c hc).1]
    exact (if_neg hne).trans (by rw [hvalue])
  by_cases hneg : exponent < 0
  · have habs : -(exponent.natAbs : Int) = exponent := by omega
    simp only [if_pos hneg, readExponent, readInt?, readSign, hnat, Option.map_some,
      Option.getD_some, if_true, habs]
  · have habs : (exponent.natAbs : Int) = exponent := by omega
    simp only [if_neg hneg, readExponent, readInt?, readSign, hnat, Option.map_some,
      Option.getD_some, Bool.false_eq_true, if_false, habs]

theorem read?_of_parts {whole fraction tail rest : List Char} {exponent : Int}
    (hwhole : AreDigits whole) (hne : whole ≠ []) (hfraction : AreDigits fraction)
    (hstop : ∀ c ∈ tail.head?, c.isDigit = false ∧ c ≠ '.')
    (htail : readExponent tail = (exponent, rest)) :
    read? (whole ++ (pointed fraction ++ tail)) = some (⟨whole, fraction, exponent⟩, rest) := by
  have hpoint : ∀ c ∈ (pointed fraction ++ tail).head?, c.isDigit = false := by
    unfold pointed
    split
    · exact fun c hc => (hstop c hc).1
    · intro c hc
      cases hc
      rfl
  simp only [read?]
  rw [readDigits_append hwhole hpoint, readFraction_pointed hfraction hstop, htail]
  exact if_neg fun h => hne h.1

/-! ### Spelling a number -/

/-- Wherever the text stands, it is read as a literal of this value, and it looks like a number
from its first character on. -/
structure Spells (text : List Char) (value : ℚ) : Prop where
  begins : ∃ c ∈ text.head?, c.isDigit = true
  reads : ∀ rest, Ends rest →
    ∃ l, read? (text ++ rest) = some (l, rest) ∧ l.toDecimal.value = value

theorem begins_append {whole : List Char} (tail : List Char) (hwhole : AreDigits whole)
    (hne : whole ≠ []) : ∃ c ∈ (whole ++ tail).head?, c.isDigit = true := by
  cases whole with
  | nil => contradiction
  | cons c cs => exact ⟨c, rfl, hwhole c (List.mem_cons_self ..)⟩

theorem Spells.plain {whole fraction : List Char} (hwhole : AreDigits whole) (hne : whole ≠ [])
    (hfraction : AreDigits fraction) :
    Spells (whole ++ pointed fraction) (toDecimal ⟨whole, fraction, 0⟩).value where
  begins := begins_append _ hwhole hne
  reads rest hrest := by
    refine ⟨_, ?_, rfl⟩
    rw [List.append_assoc]
    exact read?_of_parts hwhole hne hfraction (fun c hc => ⟨(hrest c hc).1, (hrest c hc).2.1⟩)
      (readExponent_of_ends hrest)

theorem Spells.scientific {whole fraction digits : List Char} {exponent : Int}
    (hwhole : AreDigits whole) (hne : whole ≠ []) (hfraction : AreDigits fraction)
    (hdigits : AreDigits digits) (hsome : digits ≠ [])
    (hvalue : Nat.ofDigitChars 10 digits 0 = exponent.natAbs) :
    Spells (whole ++ pointed fraction ++ 'e' :: (if exponent < 0 then '-' else '+') :: digits)
      (toDecimal ⟨whole, fraction, exponent⟩).value where
  begins := by
    rw [List.append_assoc]
    exact begins_append _ hwhole hne
  reads rest hrest := by
    refine ⟨_, ?_, rfl⟩
    rw [List.append_assoc, List.append_assoc]
    refine read?_of_parts hwhole hne hfraction (fun c hc => ?_)
      (readExponent_written hdigits hsome hvalue hrest)
    cases hc
    decide

end Calculator.Literal
