import Calculator.Proofs.Token.Literal
import Calculator.Token.Scan
import Mathlib.Data.List.TakeWhile

/-! Lexemes.

A lexeme is the text of a token: a symbol, a parenthesis or a literal. The text of a
literal is digits, with a point among or after them or without one, or a point and digits
after it, and perhaps an exponent, which is a mark, perhaps a sign, and digits
(`Literal.IsText`).

Reading a token takes the longest lexeme that a text begins with (`read?_eq_some_iff`).
Digits are read as far as they go, but that alone does not say it: a point counts with and
without digits after it, and a mark that no digits follow is given back. -/
namespace Calculator

namespace Literal

/-- A text of digits, with or without a point, and the digits before and after the point. -/
inductive IsMantissa : List Char → List Char → List Char → Prop where
  | whole {whole} : AreDigits whole → whole ≠ [] → IsMantissa whole whole []
  | pointed {whole fraction} : AreDigits whole → whole ≠ [] → AreDigits fraction →
      IsMantissa (whole ++ '.' :: fraction) whole fraction
  | fraction {fraction} : AreDigits fraction → fraction ≠ [] →
      IsMantissa ('.' :: fraction) [] fraction

/-- A sign or none, and whether it is a minus. -/
inductive IsSign : List Char → Bool → Prop where
  | none : IsSign [] false
  | plus : IsSign ['+'] false
  | minus : IsSign ['-'] true

/-- The number that digits with a sign denote. -/
def signedValue (negative : Bool) (digits : List Char) : Int :=
  if negative then -(Nat.ofDigitChars 10 digits 0) else Nat.ofDigitChars 10 digits 0

/-- A complete exponent or none, and its value. -/
inductive IsExponent : List Char → Int → Prop where
  | none : IsExponent [] 0
  | complete {mark sign negative digits} : mark = 'e' ∨ mark = 'E' → IsSign sign negative →
      AreDigits digits → digits ≠ [] →
      IsExponent (mark :: (sign ++ digits)) (signedValue negative digits)

/-- The text of a literal. -/
def IsText (text : List Char) (l : Literal) : Prop :=
  ∃ mantissa exponent, text = mantissa ++ exponent ∧ IsMantissa mantissa l.whole l.fraction ∧
    IsExponent exponent l.exponent

/-! ### What is read is the text of a literal -/

theorem areDigits_readDigits (cs : List Char) : AreDigits (readDigits cs).1 := fun _ hc =>
  List.mem_takeWhile_imp hc

theorem exists_readFraction (cs : List Char) :
    ∃ point, cs = point ++ (readFraction cs).2 ∧ AreDigits (readFraction cs).1 ∧
      (point = [] ∧ (readFraction cs).1 = [] ∨ point = '.' :: (readFraction cs).1) := by
  unfold readFraction
  split
  · next cs =>
    refine ⟨'.' :: (readDigits cs).1, ?_, areDigits_readDigits cs, .inr rfl⟩
    rw [List.cons_append, append_readDigits]
  · exact ⟨[], rfl, areDigits_nil, .inl ⟨rfl, rfl⟩⟩

theorem exists_readSign (cs : List Char) :
    ∃ sign, cs = sign ++ (readSign cs).2 ∧ IsSign sign (readSign cs).1 := by
  unfold readSign
  split
  · exact ⟨['-'], rfl, .minus⟩
  · exact ⟨['+'], rfl, .plus⟩
  · exact ⟨[], rfl, .none⟩

theorem exists_of_readInt? {cs rest : List Char} {n : Int} (h : readInt? cs = some (n, rest)) :
    ∃ sign negative digits, cs = sign ++ digits ++ rest ∧ IsSign sign negative ∧
      AreDigits digits ∧ digits ≠ [] ∧ n = signedValue negative digits := by
  obtain ⟨sign, hsign, hnegative⟩ := exists_readSign cs
  simp only [readInt?, readNat?, Option.map_eq_some_iff, Option.ite_none_left_eq_some,
    Option.some.injEq, Prod.mk.injEq, Prod.exists] at h
  obtain ⟨m, r, ⟨hne, rfl, rfl⟩, rfl, rfl⟩ := h
  refine ⟨sign, _, (readDigits (readSign cs).2).1, ?_, hnegative, areDigits_readDigits _, hne, rfl⟩
  rw [List.append_assoc, append_readDigits, ← hsign]

theorem exists_readExponent (cs : List Char) :
    ∃ exponent, cs = exponent ++ (readExponent cs).2 ∧ IsExponent exponent (readExponent cs).1 := by
  have marked (mark : Char) (hmark : mark = 'e' ∨ mark = 'E') (cs : List Char) :
      ∃ exponent, mark :: cs = exponent ++ ((readInt? cs).getD (0, mark :: cs)).2 ∧
        IsExponent exponent ((readInt? cs).getD (0, mark :: cs)).1 := by
    cases h : readInt? cs with
    | none => exact ⟨[], rfl, .none⟩
    | some p =>
      obtain ⟨sign, negative, digits, hcs, hsign, hdigits, hne, hvalue⟩ := exists_of_readInt? h
      refine ⟨mark :: (sign ++ digits), ?_, ?_⟩
      · rw [hcs]
        simp
      · rw [Option.getD_some, hvalue]
        exact .complete hmark hsign hdigits hne
  unfold readExponent
  split
  · exact marked 'e' (.inl rfl) _
  · exact marked 'E' (.inr rfl) _
  · exact ⟨[], rfl, .none⟩

theorem exists_text_of_read? {cs rest : List Char} {l : Literal} (h : read? cs = some (l, rest)) :
    ∃ text, cs = text ++ rest ∧ IsText text l := by
  simp only [read?, Option.ite_none_left_eq_some, Option.some.injEq, Prod.mk.injEq] at h
  obtain ⟨hne, rfl, rfl⟩ := h
  have hwhole := areDigits_readDigits cs
  obtain ⟨point, hpoint, hfraction, hshape⟩ := exists_readFraction (readDigits cs).2
  obtain ⟨exponent, hexponent, hvalue⟩ := exists_readExponent (readFraction (readDigits cs).2).2
  refine ⟨(readDigits cs).1 ++ point ++ exponent, ?_, _, _, rfl, ?_, hvalue⟩
  · rw [List.append_assoc, ← hexponent, List.append_assoc, ← hpoint, append_readDigits]
  · rcases hshape with ⟨rfl, hnil⟩ | rfl
    · have hsome : (readDigits cs).1 ≠ [] := fun hnone => hne ⟨hnone, hnil⟩
      rw [hnil, List.append_nil]
      exact .whole hwhole hsome
    · by_cases hsome : (readDigits cs).1 = []
      · rw [hsome]
        exact .fraction hfraction fun hnil => hne ⟨hsome, hnil⟩
      · exact .pointed hwhole hsome hfraction

/-! ### The text of a literal is read -/

theorem readDigits_append_of_areDigits {digits : List Char} (hdigits : AreDigits digits)
    (rest : List Char) :
    readDigits (digits ++ rest) = (digits ++ (readDigits rest).1, (readDigits rest).2) := by
  rw [readDigits, List.takeWhile_append_of_pos hdigits, List.dropWhile_append_of_pos hdigits]
  rfl

theorem read?_eq {cs afterWhole afterFraction rest whole fraction : List Char} {exponent : Int}
    (hwhole : readDigits cs = (whole, afterWhole))
    (hfraction : readFraction afterWhole = (fraction, afterFraction))
    (hexponent : readExponent afterFraction = (exponent, rest))
    (hne : ¬ (whole = [] ∧ fraction = [])) :
    read? cs = some (⟨whole, fraction, exponent⟩, rest) := by
  simp only [read?, hwhole, hfraction, hexponent]
  exact if_neg hne

theorem IsSign.readInt? {sign digits : List Char} {negative : Bool} (hsign : IsSign sign negative)
    (hdigits : AreDigits digits) (hne : digits ≠ []) (more : List Char) :
    ∃ n, readInt? (sign ++ digits ++ more) = some (n, (readDigits more).2) ∧
      (more = [] → n = signedValue negative digits) := by
  have hread : readSign (sign ++ digits ++ more) = (negative, digits ++ more) := by
    cases hsign with
    | none =>
      obtain ⟨c, cs, rfl⟩ := List.exists_cons_of_ne_nil hne
      have hdigit := hdigits c (List.mem_cons_self ..)
      simp only [List.nil_append, List.cons_append]
      unfold readSign
      split
      · next heq =>
        cases heq
        contradiction
      · next heq =>
        cases heq
        contradiction
      · rfl
    | plus | minus => rfl
  have hsome : digits ++ (readDigits more).1 ≠ [] := List.append_ne_nil_of_left_ne_nil hne _
  refine ⟨signedValue negative (digits ++ (readDigits more).1), ?_, ?_⟩
  · simp only [Literal.readInt?, readNat?, hread, readDigits_append_of_areDigits hdigits,
      if_neg hsome, Option.map_some, signedValue]
  · rintro rfl
    simp [readDigits]

/-- A complete exponent is read whole, however the text goes on. -/
theorem readExponent_complete {mark : Char} {sign digits : List Char} {negative : Bool}
    (hmark : mark = 'e' ∨ mark = 'E') (hsign : IsSign sign negative) (hdigits : AreDigits digits)
    (hne : digits ≠ []) (more : List Char) :
    ∃ n, readExponent (mark :: (sign ++ digits ++ more)) = (n, (readDigits more).2) ∧
      (more = [] → n = signedValue negative digits) := by
  obtain ⟨n, hread, hvalue⟩ := hsign.readInt? hdigits hne more
  refine ⟨n, ?_, hvalue⟩
  rcases hmark with rfl | rfl <;> simp only [readExponent, hread, Option.getD_some]

theorem readFraction_mark {mark : Char} (hmark : mark = 'e' ∨ mark = 'E') (cs : List Char) :
    readFraction (mark :: cs) = ([], mark :: cs) := by
  rcases hmark with rfl | rfl <;> rfl

/-- Digits end before a point and before a mark. -/
theorem readDigits_append_cons {digits : List Char} (hdigits : AreDigits digits) {c : Char}
    (hc : c = '.' ∨ c = 'e' ∨ c = 'E') (cs : List Char) :
    readDigits (digits ++ c :: cs) = (digits, c :: cs) := by
  refine readDigits_append hdigits fun d hd => ?_
  cases hd
  rcases hc with rfl | rfl | rfl <;> rfl

theorem IsMantissa.parts {mantissa whole fraction : List Char}
    (h : IsMantissa mantissa whole fraction) :
    AreDigits whole ∧ AreDigits fraction ∧ ¬ (whole = [] ∧ fraction = []) ∧
      (mantissa = whole ∧ fraction = [] ∨ mantissa = whole ++ '.' :: fraction) := by
  cases h with
  | whole hwhole hne => exact ⟨hwhole, areDigits_nil, fun h => hne h.1, .inl ⟨rfl, rfl⟩⟩
  | pointed hwhole hne hfraction => exact ⟨hwhole, hfraction, fun h => hne h.1, .inr rfl⟩
  | fraction hfraction hne => exact ⟨areDigits_nil, hfraction, fun h => hne h.2, .inr rfl⟩

/-- Whatever follows, the text of a literal is read, or more. -/
theorem IsText.read? {text : List Char} {l : Literal} (h : IsText text l) (more : List Char) :
    ∃ l' rest, Literal.read? (text ++ more) = some (l', rest) ∧ rest.length ≤ more.length ∧
      (more = [] → l' = l) := by
  obtain ⟨whole, fraction, exponent⟩ := l
  obtain ⟨mantissa, tail, rfl, hmantissa, htail⟩ := h
  replace htail : IsExponent tail exponent := htail
  obtain ⟨hwhole, hfraction, hne, hshape⟩ : AreDigits whole ∧ AreDigits fraction ∧
    ¬ (whole = [] ∧ fraction = []) ∧ _ := hmantissa.parts
  have hmore := length_readDigits more
  cases htail with
  | none =>
    rw [List.append_nil]
    rcases hshape with ⟨rfl, rfl⟩ | rfl
    · have hfractionLe := length_readFraction_le (readDigits more).2
      have hexponentLe := length_readExponent_le (readFraction (readDigits more).2).2
      refine ⟨_, _, read?_eq (readDigits_append_of_areDigits hwhole more) Prod.mk.eta.symm
        Prod.mk.eta.symm ?_, by omega, ?_⟩
      · exact fun h => hne ⟨(List.append_eq_nil_iff.1 h.1).1, rfl⟩
      · rintro rfl
        simp [readDigits, readFraction, readExponent]
    · have hexponentLe := length_readExponent_le (readDigits more).2
      have hpoint : readDigits (whole ++ '.' :: (fraction ++ more)) =
          (whole, '.' :: (fraction ++ more)) := readDigits_append_cons hwhole (.inl rfl) _
      rw [List.append_assoc, List.cons_append]
      refine ⟨_, _, read?_eq hpoint (readDigits_append_of_areDigits hfraction more)
        Prod.mk.eta.symm ?_, by omega, ?_⟩
      · exact fun h => hne ⟨h.1, (List.append_eq_nil_iff.1 h.2).1⟩
      · rintro rfl
        simp [readDigits, readExponent]
  | complete hmark hsign hdigits hsome =>
    obtain ⟨n, hexponent, hvalue⟩ := readExponent_complete hmark hsign hdigits hsome more
    rw [List.append_assoc, List.cons_append]
    rcases hshape with ⟨rfl, rfl⟩ | rfl
    · refine ⟨_, _, read?_eq (readDigits_append_cons hwhole (.inr hmark) _)
        (readFraction_mark hmark _) hexponent hne, by omega, ?_⟩
      intro h
      rw [hvalue h]
    · rw [List.append_assoc, List.cons_append]
      refine ⟨_, _, read?_eq (readDigits_append_cons hwhole (.inl rfl) _)
        (readDigits_append_cons hfraction (.inr hmark) _) hexponent hne, by omega, ?_⟩
      intro h
      rw [hvalue h]

/-- A literal consists of digits, points, marks and signs. -/
theorem IsText.mem {text : List Char} {l : Literal} (h : IsText text l) :
    ∀ c ∈ text, c.isDigit = true ∨ c ∈ ['.', 'e', 'E', '+', '-'] := by
  obtain ⟨whole, fraction, exponent⟩ := l
  obtain ⟨mantissa, tail, rfl, hmantissa, htail⟩ := h
  replace htail : IsExponent tail exponent := htail
  obtain ⟨hwhole, hfraction, -, hshape⟩ := hmantissa.parts
  intro c hc
  rcases List.mem_append.1 hc with hc | hc
  · rcases hshape with ⟨rfl, -⟩ | rfl
    · exact .inl (hwhole c hc)
    · rcases List.mem_append.1 hc with hc | hc
      · exact .inl (hwhole c hc)
      · rcases List.mem_cons.1 hc with rfl | hc
        · exact .inr (by simp)
        · exact .inl (hfraction c hc)
  · cases htail with
    | none => contradiction
    | complete hmark hsign hdigits =>
      rcases List.mem_cons.1 hc with rfl | hc
      · rcases hmark with rfl | rfl <;> exact .inr (by simp)
      · rcases List.mem_append.1 hc with hc | hc
        · cases hsign <;> simp_all
        · exact .inl (hdigits c hc)

/-- It begins with a digit or a point. -/
theorem IsText.head {text : List Char} {l : Literal} (h : IsText text l) :
    ∃ c cs, text = c :: cs ∧ (c.isDigit = true ∨ c = '.') := by
  obtain ⟨whole, fraction, exponent⟩ := l
  obtain ⟨mantissa, tail, rfl, hmantissa, -⟩ := h
  replace hmantissa : IsMantissa mantissa whole fraction := hmantissa
  have hdigits {digits : List Char} (hdigits : AreDigits digits) (hne : digits ≠ [])
      (cs : List Char) : ∃ c rest, digits ++ cs = c :: rest ∧ (c.isDigit = true ∨ c = '.') := by
    obtain ⟨c, rest, rfl⟩ := List.exists_cons_of_ne_nil hne
    exact ⟨c, rest ++ cs, rfl, .inl (hdigits c (List.mem_cons_self ..))⟩
  cases hmantissa with
  | whole hwhole hne => exact hdigits hwhole hne tail
  | pointed hwhole hne =>
    rw [List.append_assoc]
    exact hdigits hwhole hne _
  | fraction => exact ⟨'.', _, rfl, .inr rfl⟩

end Literal

/-! ### Lexemes -/

/-- The texts of tokens. -/
inductive Lexeme : List Char → Token → Prop where
  | number {text l} : Literal.IsText text l → Lexeme text (.number l.toDecimal.toFloat)
  | operator (symbol : Symbol) : Lexeme [symbol.toChar] (.operator symbol)
  | openParen : Lexeme ['('] .openParen
  | closeParen : Lexeme [')'] .closeParen

/-- The longest lexeme that a text begins with. -/
structure IsLongest (lexeme text : List Char) : Prop where
  begins : lexeme <+: text
  isLexeme : ∃ token, Lexeme lexeme token
  longest : ∀ other token, Lexeme other token → other <+: text → other.length ≤ lexeme.length

theorem IsLongest.unique {lexeme lexeme' text : List Char} (h : IsLongest lexeme text)
    (h' : IsLongest lexeme' text) : lexeme = lexeme' := by
  obtain ⟨token, htoken⟩ := h.isLexeme
  obtain ⟨token', htoken'⟩ := h'.isLexeme
  have hle := h.longest lexeme' token' htoken' h'.begins
  have hle' := h'.longest lexeme token htoken h.begins
  exact (List.prefix_of_prefix_length_le h.begins h'.begins hle').eq_of_length (by omega)

namespace Token
open Text

/-- Where a literal may begin, that is what is read. -/
theorem read?_of_begins {c : Char} (hc : c.isDigit = true ∨ c = '.') (cs : List Char) :
    read? (c :: cs) = (Literal.read? (c :: cs)).map fun (l, rest) =>
      (.number l.toDecimal.toFloat, rest) := by
  have hsymbol : Symbol.ofChar? c = none := by
    unfold Symbol.ofChar?
    split <;> simp_all [Char.isDigit]
  unfold read?
  split
  · contradiction
  · next heq =>
    cases heq
    simp_all [Char.isDigit]
  · next heq =>
    cases heq
    simp_all [Char.isDigit]
  · next heq =>
    cases heq
    rw [hsymbol]

theorem exists_lexeme_of_read? {cs rest : List Char} {token : Token}
    (h : read? cs = some (token, rest)) : ∃ text, cs = text ++ rest ∧ Lexeme text token := by
  unfold read? at h
  split at h
  · contradiction
  · cases h
    exact ⟨['('], rfl, .openParen⟩
  · cases h
    exact ⟨[')'], rfl, .closeParen⟩
  · next c cs _ _ =>
    split at h
    · next symbol hsymbol =>
      cases h
      obtain rfl : symbol.toChar = c := by
        unfold Symbol.ofChar? at hsymbol
        split at hsymbol <;> cases hsymbol <;> rfl
      exact ⟨[symbol.toChar], rfl, .operator symbol⟩
    · simp only [Option.map_eq_some_iff, Prod.mk.injEq, Prod.exists] at h
      obtain ⟨l, r, hread, rfl, rfl⟩ := h
      obtain ⟨text, heq, htext⟩ := Literal.exists_text_of_read? hread
      exact ⟨text, heq, .number htext⟩

end Token

namespace Lexeme
open Token

/-- Whatever follows, a lexeme is read, or more. -/
theorem read? {text : List Char} {token : Token} (h : Lexeme text token) (more : List Char) :
    ∃ token' rest, Token.read? (text ++ more) = some (token', rest) ∧
      rest.length ≤ more.length ∧ (more = [] → token' = token) := by
  cases h with
  | number htext =>
    obtain ⟨l', rest, hread, hlength, hexact⟩ := htext.read? more
    obtain ⟨c, cs, rfl, hc⟩ := htext.head
    rw [List.cons_append] at hread ⊢
    refine ⟨.number l'.toDecimal.toFloat, rest, ?_, hlength, fun hmore => by rw [hexact hmore]⟩
    rw [read?_of_begins hc, hread]
    rfl
  | operator symbol => exact ⟨.operator symbol, more, by cases symbol <;> rfl, Nat.le_refl _, fun _ => rfl⟩
  | openParen => exact ⟨.openParen, more, rfl, Nat.le_refl _, fun _ => rfl⟩
  | closeParen => exact ⟨.closeParen, more, rfl, Nat.le_refl _, fun _ => rfl⟩

/-- A text is the lexeme of one token at most. -/
theorem unique {text : List Char} {token token' : Token} (h : Lexeme text token)
    (h' : Lexeme text token') : token = token' := by
  obtain ⟨first, rest, hread, -, hfirst⟩ := h.read? []
  obtain ⟨second, rest', hread', -, hsecond⟩ := h'.read? []
  rw [hread] at hread'
  cases hread'
  rw [← hfirst rfl, ← hsecond rfl]

end Lexeme

namespace Token
open Text

/-- **Reading a token takes the longest lexeme that the text begins with.** -/
theorem read?_eq_some_iff {cs rest : List Char} {token : Token} :
    read? cs = some (token, rest) ↔
      ∃ lexeme, cs = lexeme ++ rest ∧ IsLongest lexeme cs ∧ Lexeme lexeme token := by
  constructor
  · intro h
    obtain ⟨lexeme, heq, htoken⟩ := exists_lexeme_of_read? h
    refine ⟨lexeme, heq, ⟨⟨rest, heq.symm⟩, ⟨token, htoken⟩, ?_⟩, htoken⟩
    rintro other token' htoken' ⟨more, hmore⟩
    obtain ⟨_, rest', hread, hlength, -⟩ := htoken'.read? more
    rw [hmore, h] at hread
    cases hread
    have hsplit := congrArg List.length (hmore.trans heq)
    simp only [List.length_append] at hsplit
    omega
  · rintro ⟨lexeme, heq, hlongest, htoken⟩
    obtain ⟨token', rest', hread, hlength, -⟩ := htoken.read? rest
    rw [← heq] at hread
    obtain ⟨lexeme', heq', htoken'⟩ := exists_lexeme_of_read? hread
    have hle := hlongest.longest lexeme' token' htoken' ⟨rest', heq'.symm⟩
    have hsplit := congrArg List.length (heq.symm.trans heq')
    simp only [List.length_append] at hsplit
    have hparts := List.append_inj (heq.symm.trans heq') (by omega)
    rw [hread, htoken.unique (hparts.1 ▸ htoken'), hparts.2]

theorem read?_eq_none_iff {cs : List Char} :
    read? cs = none ↔ ∀ lexeme token, Lexeme lexeme token → ¬ lexeme <+: cs := by
  constructor
  · rintro h lexeme token htoken ⟨rest, rfl⟩
    obtain ⟨_, _, hread, -⟩ := htoken.read? rest
    rw [h] at hread
    contradiction
  · intro h
    cases hread : read? cs with
    | none => rfl
    | some p =>
      obtain ⟨lexeme, heq, htoken⟩ := exists_lexeme_of_read? hread
      exact absurd ⟨p.2, heq.symm⟩ (h lexeme p.1 htoken)

end Token
end Calculator
