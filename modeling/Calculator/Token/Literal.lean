import Calculator.Decimal

/-! Number literals.

A literal is digits with a point before, among or after them, then perhaps an
exponent. An exponent counts only when it is complete: in `1e` the literal is `1`
and the `e` is left unread. Signs in front belong to the expression. -/
namespace Calculator

structure Literal where
  /-- The digits before the point. -/
  whole : List Char
  /-- The digits after it. -/
  fraction : List Char
  exponent : Int
deriving DecidableEq, Repr

namespace Literal

/-- The decimal denoted: the digits as one number, the exponent less the places after the point. -/
def toDecimal (l : Literal) : Decimal where
  coefficient := Nat.ofDigitChars 10 (l.whole ++ l.fraction) 0
  exponent := l.exponent - l.fraction.length

/-! ### Reading

Each reader answers what it read together with the unread rest. -/

def readDigits (cs : List Char) : List Char × List Char :=
  (cs.takeWhile Char.isDigit, cs.dropWhile Char.isDigit)

/-- A point and the digits after it, both optional. -/
def readFraction : List Char → List Char × List Char
  | '.' :: cs => readDigits cs
  | cs => ([], cs)

/-- One digit at least. -/
def readNat? (cs : List Char) : Option (Nat × List Char) :=
  let (digits, rest) := readDigits cs
  if digits = [] then none else some (Nat.ofDigitChars 10 digits 0, rest)

/-- Whether there is a minus sign; a plus sign is read too. -/
def readSign : List Char → Bool × List Char
  | '-' :: cs => (true, cs)
  | '+' :: cs => (false, cs)
  | cs => (false, cs)

def readInt? (cs : List Char) : Option (Int × List Char) :=
  let (negative, rest) := readSign cs
  (readNat? rest).map fun (n, rest) => (if negative then -n else n, rest)

/-- A complete exponent; without one it is zero and nothing is read. -/
def readExponent : List Char → Int × List Char
  | 'e' :: cs => (readInt? cs).getD (0, 'e' :: cs)
  | 'E' :: cs => (readInt? cs).getD (0, 'E' :: cs)
  | cs => (0, cs)

/-- The literal a text begins with. -/
def read? (cs : List Char) : Option (Literal × List Char) :=
  let (whole, rest) := readDigits cs
  let (fraction, rest) := readFraction rest
  let (exponent, rest) := readExponent rest
  if whole = [] ∧ fraction = [] then none else some (⟨whole, fraction, exponent⟩, rest)

/-! ### What is left unread -/

theorem append_readDigits (cs : List Char) : (readDigits cs).1 ++ (readDigits cs).2 = cs :=
  List.takeWhile_append_dropWhile

theorem length_readDigits (cs : List Char) :
    (readDigits cs).1.length + (readDigits cs).2.length = cs.length := by
  rw [← List.length_append, append_readDigits]

theorem length_readFraction_le (cs : List Char) :
    (readFraction cs).1.length + (readFraction cs).2.length ≤ cs.length := by
  unfold readFraction
  split
  · next cs =>
    have := length_readDigits cs
    simp only [List.length_cons]
    omega
  · simp

theorem length_of_readNat? {cs rest : List Char} {n : Nat} (h : readNat? cs = some (n, rest)) :
    rest.length ≤ cs.length := by
  have := length_readDigits cs
  simp only [readNat?, Option.ite_none_left_eq_some, Option.some.injEq, Prod.mk.injEq] at h
  rw [← h.2.2]
  omega

theorem length_readSign_le (cs : List Char) : (readSign cs).2.length ≤ cs.length := by
  unfold readSign
  split <;> simp

theorem length_of_readInt? {cs rest : List Char} {n : Int} (h : readInt? cs = some (n, rest)) :
    rest.length ≤ cs.length := by
  simp only [readInt?, Option.map_eq_some_iff, Prod.mk.injEq, Prod.exists] at h
  obtain ⟨m, r, hr, -, rfl⟩ := h
  exact Nat.le_trans (length_of_readNat? hr) (length_readSign_le cs)

theorem length_readExponent_le (cs : List Char) : (readExponent cs).2.length ≤ cs.length := by
  have step (c : Char) (cs : List Char) :
      ((readInt? cs).getD (0, c :: cs)).2.length ≤ (c :: cs).length := by
    cases h : readInt? cs with
    | none => exact Nat.le_refl _
    | some p => exact Nat.le_succ_of_le (length_of_readInt? h)
  unfold readExponent
  split
  · exact step 'e' _
  · exact step 'E' _
  · exact Nat.le_refl _

theorem length_lt_of_read? {cs rest : List Char} {l : Literal} (h : read? cs = some (l, rest)) :
    rest.length < cs.length := by
  have h₁ := length_readDigits cs
  have h₂ := length_readFraction_le (readDigits cs).2
  have h₃ := length_readExponent_le (readFraction (readDigits cs).2).2
  simp only [read?, Option.ite_none_left_eq_some, Option.some.injEq, Prod.mk.injEq] at h
  obtain ⟨hne, -, rfl⟩ := h
  have : (readDigits cs).1.length ≠ 0 ∨ (readFraction (readDigits cs).2).1.length ≠ 0 := by
    simp only [ne_eq, List.length_eq_zero_iff]
    exact Classical.not_and_iff_not_or_not.1 hne
  omega

end Literal
end Calculator
