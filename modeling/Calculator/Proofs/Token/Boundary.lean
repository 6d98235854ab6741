import Calculator.Proofs.Token.Munch

/-! Where a text can be divided.

A blank is in no lexeme and a parenthesis is a lexeme by itself (`StandsAlone`), so no
lexeme reaches across one: what stands before it is read as if the text ended there, and
then reading starts anew (`scan_append`). -/
namespace Calculator
open Text

/-- Every lexeme with this character consists of it alone. -/
def StandsAlone (c : Char) : Prop :=
  ∀ text token, Lexeme text token → c ∈ text → text = [c]

theorem standsAlone_of_not_mem_literal {c : Char} (hdigit : c.isDigit = false)
    (hmem : c ∉ ['.', 'e', 'E', '+', '-']) : StandsAlone c := by
  intro text token h hc
  cases h with
  | number htext =>
    rcases htext.mem c hc with h | h
    · rw [hdigit] at h
      contradiction
    · exact absurd h hmem
  | operator | openParen | closeParen => rw [List.mem_singleton.1 hc]

theorem standsAlone_openParen : StandsAlone '(' :=
  standsAlone_of_not_mem_literal rfl (by decide)

theorem standsAlone_closeParen : StandsAlone ')' :=
  standsAlone_of_not_mem_literal rfl (by decide)

theorem standsAlone_space : StandsAlone ' ' :=
  standsAlone_of_not_mem_literal rfl (by decide)

/-- No lexeme begins before such a character and ends after it. -/
theorem StandsAlone.begins_of_append {c : Char} (hc : StandsAlone c) {text cs rest : List Char}
    {token : Token} (htoken : Lexeme text token) (hne : cs ≠ [])
    (hbegins : text <+: cs ++ c :: rest) : text <+: cs := by
  rcases List.prefix_or_prefix_of_prefix hbegins (List.prefix_append cs _) with h | ⟨more, rfl⟩
  · exact h
  · cases more with
    | nil => exact ⟨[], by simp⟩
    | cons d more =>
      obtain ⟨tail, htail⟩ := hbegins
      rw [List.append_assoc] at htail
      obtain rfl : d = c := (List.cons.inj (List.append_cancel_left htail)).1
      have halone := congrArg List.length (hc _ token htoken (by simp))
      have hpos := List.length_pos_iff.2 hne
      simp only [List.length_append, List.length_cons, List.length_nil] at halone
      omega

/-- Where blanks are skipped and something is left, it is left before every rest. -/
theorem skipBlanks_append_of_ne_nil {cs : List Char} (hne : skipBlanks cs ≠ []) (rest : List Char) :
    skipBlanks (cs ++ rest) = skipBlanks cs ++ rest := by
  rw [skipBlanks, List.dropWhile_append, ← skipBlanks]
  simp [hne]

theorem skipBlanks_append_of_eq_nil {cs : List Char} (hnil : skipBlanks cs = []) (rest : List Char) :
    skipBlanks (cs ++ rest) = skipBlanks rest := by
  rw [skipBlanks, List.dropWhile_append, ← skipBlanks, hnil]
  rfl

namespace Token
variable {c : Char}

/-- A rest that no lexeme reaches into does not matter. -/
theorem read?_append_of_begins {cs rest : List Char}
    (h : ∀ lexeme token, Lexeme lexeme token → lexeme <+: cs ++ rest → lexeme <+: cs) :
    read? (cs ++ rest) = (read? cs).map fun (token, unread) => (token, unread ++ rest) := by
  cases hread : read? cs with
  | none =>
    rw [Option.map_none, read?_eq_none_iff]
    intro lexeme token htoken hbegins
    exact read?_eq_none_iff.1 hread lexeme token htoken (h lexeme token htoken hbegins)
  | some p =>
    obtain ⟨token, unread⟩ := p
    obtain ⟨lexeme, rfl, hlongest, htoken⟩ := read?_eq_some_iff.1 hread
    rw [Option.map_some, read?_eq_some_iff]
    refine ⟨lexeme, by simp, ⟨by simp, hlongest.isLexeme, ?_⟩, htoken⟩
    intro other token' htoken' hbegins
    exact hlongest.longest other token' htoken' (h other token' htoken' hbegins)

theorem read?_append (hc : StandsAlone c) {cs : List Char} (hne : cs ≠ []) (rest : List Char) :
    read? (cs ++ c :: rest) = (read? cs).map fun (token, unread) => (token, unread ++ c :: rest) :=
  read?_append_of_begins fun _ _ htoken => hc.begins_of_append htoken hne

/-- A text with such a character in it is read up to there, and if that succeeds, on from there. -/
theorem scan_append (hc : StandsAlone c) (cs rest : List Char) :
    scan (cs ++ c :: rest) =
      if (scan cs).2 = [] then ((scan cs).1 ++ (scan (c :: rest)).1, (scan (c :: rest)).2)
      else ((scan cs).1, (scan cs).2 ++ c :: rest) := by
  induction cs using scan.induct with
  | case1 cs hread =>
    rw [scan_of_none hread]
    by_cases hnil : skipBlanks cs = []
    · rw [if_pos hnil]
      exact scan_eq_of_skipBlanks (skipBlanks_append_of_eq_nil hnil _)
    · have hskip := skipBlanks_append_of_ne_nil hnil (c :: rest)
      have hnone : read? (skipBlanks (cs ++ c :: rest)) = none := by
        rw [hskip, read?_append hc hnil, hread]
        rfl
      rw [if_neg hnil, scan_of_none hnone, hskip]
  | case2 cs token unread hread tokens last hscan ih =>
    have hne : skipBlanks cs ≠ [] := by
      intro hnil
      rw [hnil] at hread
      contradiction
    have hskip := skipBlanks_append_of_ne_nil hne (c :: rest)
    have hsome : read? (skipBlanks (cs ++ c :: rest)) = some (token, unread ++ c :: rest) := by
      rw [hskip, read?_append hc hne, hread]
      rfl
    rw [scan_of_some hsome, scan_of_some hread, ih]
    split <;> rfl

/-- It is read to its end if what stands before the character is and what begins with it is. -/
theorem scan_append_eq_iff (hc : StandsAlone c) {cs rest : List Char} {tokens : List Token} :
    scan (cs ++ c :: rest) = (tokens, []) ↔
      ∃ before after, scan cs = (before, []) ∧ scan (c :: rest) = (after, []) ∧
        tokens = before ++ after := by
  rw [scan_append hc]
  generalize scan cs = first
  generalize scan (c :: rest) = second
  obtain ⟨before, unread⟩ := first
  obtain ⟨after, unread'⟩ := second
  by_cases hnil : unread = []
  · rw [if_pos hnil]
    constructor
    · intro h
      cases h
      exact ⟨before, after, Prod.ext rfl hnil, rfl, rfl⟩
    · rintro ⟨_, _, h, h', rfl⟩
      cases h
      cases h'
      rfl
  · simp [hnil]

end Token
end Calculator
