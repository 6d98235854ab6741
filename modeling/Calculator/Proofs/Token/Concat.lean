import Calculator.Proofs.Token.Boundary
import Calculator.Proofs.Token.Stop

/-! Texts set side by side.

A literal that runs on from one text into the next leaves a literal behind it, with a digit or
a point at its end, or something that is not read to its end: a lone point, or an exponent
without digits (`Literal.IsText.of_append`). So where the first text is read to its end, and
unless it ends in a digit or a point and the second begins with what carries a literal on,
the two are read one after the other (`scan_append_of_apart`). Blanks between them keep any
two texts apart, and without blanks only two numbers can fail to be (`tokenize_append`). -/
namespace Calculator
open Text

namespace Literal

/-- Neither a digit nor a point comes last. -/
def Closed (text : List Char) : Prop :=
  ∀ c ∈ text.getLast?, c.isDigit = false ∧ c ≠ '.'

/-- No literal can run on from the first text into the second. -/
def Apart (first second : List Char) : Prop :=
  Closed first ∨ Ends second

theorem closed_append_iff {text : List Char} (before : List Char) (hne : text ≠ []) :
    Closed (before ++ text) ↔ Closed text := by
  rw [Closed, Closed, List.getLast?_append_of_ne_nil before hne]

theorem Apart.of_isSuffix {text shorter rest : List Char} (h : Apart text rest)
    (hsuffix : shorter <:+ text) : Apart shorter rest := by
  obtain ⟨before, rfl⟩ := hsuffix
  refine h.imp_left fun hclosed => ?_
  by_cases hnil : shorter = []
  · rw [hnil]
    exact fun _ hc => by contradiction
  · exact (closed_append_iff before hnil).1 hclosed

theorem not_ends {c : Char} (h : c.isDigit = true ∨ c = '.' ∨ c = 'e' ∨ c = 'E') (rest : List Char) :
    ¬ Ends (c :: rest) := by
  intro hends
  obtain ⟨hdigit, hpoint, he, hE⟩ := hends c rfl
  simp_all

/-! ### How a literal ends -/

theorem AreDigits.not_closed {digits : List Char} (h : AreDigits digits) (hne : digits ≠ []) :
    ¬ Closed digits := by
  intro hclosed
  have hlast := List.getLast?_eq_some_getLast hne
  have hdigit := h _ (List.getLast_mem hne)
  rw [(hclosed _ hlast).1] at hdigit
  contradiction

theorem IsMantissa.not_closed {mantissa whole fraction : List Char}
    (h : IsMantissa mantissa whole fraction) : ¬ Closed mantissa := by
  have hpointed {fraction : List Char} (hdigits : AreDigits fraction) : ¬ Closed ('.' :: fraction) := by
    by_cases hnil : fraction = []
    · rw [hnil]
      exact fun hclosed => (hclosed '.' rfl).2 rfl
    · rw [← List.singleton_append, closed_append_iff _ hnil]
      exact hdigits.not_closed hnil
  cases h with
  | whole hwhole hne => exact hwhole.not_closed hne
  | pointed _ _ hfraction =>
    rw [closed_append_iff _ (List.cons_ne_nil _ _)]
    exact hpointed hfraction
  | fraction hfraction => exact hpointed hfraction

/-- A literal ends in a digit or a point. -/
theorem IsText.not_closed {text : List Char} {l : Literal} (h : IsText text l) : ¬ Closed text := by
  obtain ⟨whole, fraction, exponent⟩ := l
  obtain ⟨mantissa, tail, rfl, hmantissa, htail⟩ := h
  replace htail : IsExponent tail exponent := htail
  cases htail with
  | none =>
    rw [List.append_nil]
    exact hmantissa.not_closed
  | @complete mark sign _ digits _ _ hdigits hne =>
    have hsplit : mantissa ++ mark :: (sign ++ digits) = (mantissa ++ mark :: sign) ++ digits := by simp
    rw [hsplit, closed_append_iff _ hne]
    exact hdigits.not_closed hne

/-! ### Beginnings of a literal -/

/-- What can stand before the rest of a literal and is no literal itself. -/
inductive Unfinished : List Char → Prop where
  | point : Unfinished ['.']
  | exponent {text l mark sign negative} : IsText text l → mark = 'e' ∨ mark = 'E' →
      IsSign sign negative → Unfinished (text ++ mark :: sign)

theorem IsMantissa.mem {mantissa whole fraction : List Char} (h : IsMantissa mantissa whole fraction) :
    ∀ c ∈ mantissa, c.isDigit = true ∨ c = '.' := by
  obtain ⟨hwhole, hfraction, -, ⟨rfl, -⟩ | rfl⟩ := h.parts
  · exact fun c hc => .inl (hwhole c hc)
  · intro c hc
    rcases List.mem_append.1 hc with hc | hc
    · exact .inl (hwhole c hc)
    · exact (List.mem_cons.1 hc).symm.imp_left (hfraction c)

theorem IsMantissa.of_append {text more whole fraction : List Char}
    (h : IsMantissa (text ++ more) whole fraction) (hne : text ≠ []) :
    (∃ whole fraction, IsMantissa text whole fraction) ∨ text = ['.'] := by
  generalize hmantissa : text ++ more = mantissa at h
  have hpointed {before fraction : List Char} (hbefore : AreDigits before)
      (hfraction : AreDigits fraction) (heq : text ++ more = before ++ '.' :: fraction) :
      (∃ whole fraction, IsMantissa text whole fraction) ∨ text = ['.'] := by
    rcases List.append_eq_append_iff.1 heq with ⟨rest, rfl, -⟩ | ⟨rest, rfl, hrest⟩
    · exact .inl ⟨_, _, .whole (fun c hc => hbefore c (List.mem_append_left _ hc)) hne⟩
    · cases rest with
      | nil =>
        rw [List.append_nil] at hne ⊢
        exact .inl ⟨_, _, .whole hbefore hne⟩
      | cons c rest =>
        obtain ⟨rfl, rfl⟩ := List.cons.inj hrest
        have hrest : AreDigits rest := fun c hc => hfraction c (List.mem_append_left _ hc)
        by_cases hnil : before = []
        · subst hnil
          by_cases hsome : rest = []
          · exact .inr (by rw [hsome]; rfl)
          · exact .inl ⟨_, _, .fraction hrest hsome⟩
        · exact .inl ⟨_, _, .pointed hbefore hnil hrest⟩
  cases h with
  | whole hwhole =>
    subst hmantissa
    exact .inl ⟨_, _, .whole (fun c hc => hwhole c (List.mem_append_left _ hc)) hne⟩
  | pointed hwhole _ hfraction => exact hpointed hwhole hfraction hmantissa
  | fraction hfraction => exact hpointed areDigits_nil hfraction hmantissa

theorem IsSign.of_append {sign more : List Char} {negative : Bool} (h : IsSign (sign ++ more) negative) :
    ∃ negative, IsSign sign negative := by
  generalize hsigned : sign ++ more = signed at h
  cases sign with
  | nil => exact ⟨_, .none⟩
  | cons c sign =>
    obtain rfl : sign = [] := by cases h <;> simp_all
    cases h with
    | none => contradiction
    | plus | minus =>
      obtain ⟨rfl, -⟩ := List.cons.inj hsigned
      first | exact ⟨_, .plus⟩ | exact ⟨_, .minus⟩

/-- **Cut in two, a literal leaves a literal behind that its rest carries on, or something
unfinished.** -/
theorem IsText.of_append {text more : List Char} {c : Char} {l : Literal}
    (h : IsText (text ++ c :: more) l) (hne : text ≠ []) :
    (∃ l, IsText text l) ∧ ¬ Ends (c :: more) ∨ Unfinished text := by
  obtain ⟨whole, fraction, exponent⟩ := l
  obtain ⟨mantissa, tail, heq, hmantissa, htail⟩ := h
  replace hmantissa : IsMantissa mantissa whole fraction := hmantissa
  replace htail : IsExponent tail exponent := htail
  have hmark {mark : Char} (hmark : mark = 'e' ∨ mark = 'E') (cs : List Char) : ¬ Ends (mark :: cs) :=
    not_ends (.inr (.inr hmark)) cs
  rcases List.append_eq_append_iff.1 heq with ⟨rest, rfl, hrest⟩ | ⟨rest, rfl, hrest⟩
  · -- The cut is in the mantissa or after it.
    have hends : ¬ Ends (c :: more) := by
      cases rest with
      | nil =>
        cases htail with
        | none => contradiction
        | complete hmark' =>
          rw [List.nil_append] at hrest
          rw [hrest]
          exact hmark hmark' _
      | cons d rest =>
        obtain ⟨rfl, -⟩ := List.cons.inj hrest
        exact not_ends ((hmantissa.mem c (by simp)).imp_right .inl) more
    rcases hmantissa.of_append hne with ⟨whole, fraction, htext⟩ | rfl
    · exact .inl ⟨⟨⟨whole, fraction, 0⟩, text, [], by simp, htext, .none⟩, hends⟩
    · exact .inr .point
  · -- The cut is in the exponent.
    have htext : IsText mantissa ⟨whole, fraction, 0⟩ := ⟨mantissa, [], by simp, hmantissa, .none⟩
    cases htail with
    | none => simp at hrest
    | @complete mark sign negative digits hmark' hsign hdigits =>
      cases rest with
      | nil =>
        rw [List.nil_append] at hrest
        rw [List.append_nil, ← hrest]
        exact .inl ⟨⟨_, htext⟩, hmark hmark' _⟩
      | cons d rest =>
        obtain ⟨rfl, hafter⟩ := List.cons.inj hrest
        rcases List.append_eq_append_iff.1 hafter with ⟨digits', rfl, hdigits'⟩ | ⟨sign', rfl, -⟩
        · have hc : c.isDigit = true := hdigits c (by simp [hdigits'])
          by_cases hnil : digits' = []
          · rw [hnil, List.append_nil]
            exact .inr (.exponent htext hmark' hsign)
          · have hdigits'' : AreDigits digits' := fun d hd => hdigits d (by simp [hdigits', hd])
            exact .inl ⟨⟨⟨whole, fraction, _⟩, mantissa, _, rfl, hmantissa,
              .complete hmark' hsign hdigits'' hnil⟩, not_ends (.inl hc) more⟩
        · obtain ⟨negative', hsign'⟩ := hsign.of_append
          exact .inr (.exponent htext hmark' hsign')

end Literal

open Literal

/-! ### Lexemes do not run on -/

/-- Only a literal is longer than one character. -/
theorem Lexeme.exists_isText {text : List Char} {token : Token} (h : Lexeme text token)
    (hlength : 1 < text.length) : ∃ l, IsText text l := by
  cases h with
  | number htext => exact ⟨_, htext⟩
  | operator | openParen | closeParen => exact absurd hlength (Nat.lt_irrefl 1)

/-- A literal is read alone if neither a digit nor a point follows: a longer one would end in the
last of what follows it. -/
theorem Literal.IsText.exists_read? {text after : List Char} {l : Literal} (h : IsText text l)
    (hafter : ∀ c ∈ after, c.isDigit = false ∧ c ≠ '.') :
    ∃ token, Token.read? (text ++ after) = some (token, after) := by
  obtain ⟨c, cs, hhead, -⟩ := h.head
  obtain ⟨token, rest, hread, hlength, -⟩ := (Lexeme.number h).read? after
  obtain ⟨lexeme, heq, htoken⟩ := Token.exists_lexeme_of_read? hread
  rcases List.append_eq_append_iff.1 heq with ⟨more, rfl, hmore⟩ | ⟨more, -, rfl⟩
  · by_cases hnil : more = []
    · rw [hnil, List.nil_append] at hmore
      exact ⟨token, hmore ▸ hread⟩
    · have hlong : 1 < (text ++ more).length := by
        have := List.length_pos_iff.2 hnil
        rw [hhead, List.length_append, List.length_cons]
        omega
      obtain ⟨l', htext⟩ := htoken.exists_isText hlong
      have hclosed : Closed more := fun d hd =>
        hafter d (hmore ▸ List.mem_append_left _ (List.mem_of_getLast? hd))
      exact absurd ((closed_append_iff _ hnil).2 hclosed) htext.not_closed
  · have hnil : more = [] := by
      rw [List.length_append] at hlength
      exact List.eq_nil_of_length_eq_zero (by omega)
    subst hnil
    exact ⟨token, hread⟩

/-- Something unfinished is not read to its end: a mark without digits is left. -/
theorem Literal.Unfinished.unread_ne_nil {cs : List Char} (h : Unfinished cs) :
    (Token.scan cs).2 ≠ [] := by
  cases h with
  | point =>
    rw [Token.scan_of_none rfl]
    exact List.cons_ne_nil _ _
  | @exponent text l mark sign negative htext hmark hsign =>
    have hneither : ∀ c ∈ mark :: sign, c.isDigit = false ∧ c ≠ '.' := by
      rcases hmark with rfl | rfl <;> cases hsign <;> simp
    have hstop : Token.scan (mark :: sign) = ([], mark :: sign) := by
      rcases hmark with rfl | rfl <;> cases hsign <;> exact Token.scan_of_none rfl
    obtain ⟨token, hread⟩ := htext.exists_read? hneither
    rw [← (Lexeme.number htext).skipBlanks_append] at hread
    rw [Token.scan_of_some hread, hstop]
    exact List.cons_ne_nil _ _

theorem begins_of_apart {cs rest lexeme : List Char} {token : Token}
    (hread : (Token.scan cs).2 = []) (hne : cs ≠ []) (hapart : Apart cs rest)
    (htoken : Lexeme lexeme token) (hbegins : lexeme <+: cs ++ rest) : lexeme <+: cs := by
  rcases List.prefix_or_prefix_of_prefix hbegins (List.prefix_append cs rest) with h | ⟨more, rfl⟩
  · exact h
  · cases more with
    | nil => simp
    | cons c more =>
      exfalso
      obtain ⟨l, htext⟩ := htoken.exists_isText (by
        have := List.length_pos_iff.2 hne
        rw [List.length_append, List.length_cons]
        omega)
      obtain ⟨tail, htail⟩ := hbegins
      rw [List.append_assoc] at htail
      rw [← List.append_cancel_left htail] at hapart
      rcases htext.of_append hne with ⟨⟨l', hcs⟩, hends⟩ | hunfinished
      · exact hapart.elim hcs.not_closed hends
      · exact hunfinished.unread_ne_nil hread

/-- **Two texts apart are read one after the other**, if the first is read to its end. -/
theorem Token.scan_append_of_apart {cs rest : List Char} (hread : (scan cs).2 = [])
    (hapart : Apart cs rest) : scan (cs ++ rest) = ((scan cs).1 ++ (scan rest).1, (scan rest).2) := by
  induction cs using scan.induct with
  | case1 cs hnone =>
    rw [scan_of_none hnone] at hread ⊢
    exact scan_eq_of_skipBlanks (skipBlanks_append_of_eq_nil hread rest)
  | case2 cs token unread hsome _ _ _ ih =>
    have hne : skipBlanks cs ≠ [] := by
      intro hnil
      rw [hnil] at hsome
      contradiction
    have hsuffix : skipBlanks cs <:+ cs := List.dropWhile_suffix isBlank
    have hskip : skipBlanks (skipBlanks cs) = skipBlanks cs := skipBlanks_of_isPrefix List.prefix_rfl
    have hbegins (lexeme : List Char) (token : Token) (htoken : Lexeme lexeme token)
        (hlexeme : lexeme <+: skipBlanks cs ++ rest) : lexeme <+: skipBlanks cs :=
      begins_of_apart ((congrArg Prod.snd (scan_eq_of_skipBlanks hskip)).trans hread) hne
        (hapart.of_isSuffix hsuffix) htoken hlexeme
    have hnext : read? (skipBlanks (cs ++ rest)) = some (token, unread ++ rest) := by
      rw [skipBlanks_append_of_ne_nil hne, read?_append_of_begins hbegins, hsome]
      rfl
    obtain ⟨lexeme, heq, -⟩ := exists_lexeme_of_read? hsome
    have hunread : unread <:+ cs := List.IsSuffix.trans ⟨lexeme, heq.symm⟩ hsuffix
    rw [scan_of_some hsome] at hread ⊢
    rw [scan_of_some hnext, ih hread (hapart.of_isSuffix hunread), List.cons_append]

/-! ### Numbers at the ends -/

theorem AreBlanks.closed {cs : List Char} (h : AreBlanks cs) : Closed cs := fun c hc => by
  obtain ⟨hdigit, hpoint, -⟩ := ends_blank (h c (List.mem_of_getLast? hc)) [] c rfl
  exact ⟨hdigit, hpoint⟩

/-- A text that a literal could go on from ends in a number. -/
theorem exists_number_of_not_closed {cs : List Char} {tokens : List Token}
    (hread : Token.scan cs = (tokens, [])) (hclosed : ¬ Closed cs) :
    ∃ x, tokens.getLast? = some (.number x) := by
  induction cs using Token.scan.induct generalizing tokens with
  | case1 cs hnone =>
    rw [Token.scan_of_none hnone] at hread
    have hblanks : AreBlanks cs := List.dropWhile_eq_nil_iff.1 (congrArg Prod.snd hread)
    exact absurd hblanks.closed hclosed
  | case2 cs token unread hsome _ _ _ ih =>
    obtain ⟨lexeme, heq, htoken⟩ := Token.exists_lexeme_of_read? hsome
    have hcs : cs = (cs.takeWhile isBlank ++ lexeme) ++ unread := by
      rw [List.append_assoc, ← heq]
      exact List.takeWhile_append_dropWhile.symm
    rw [Token.scan_of_some hsome] at hread
    obtain ⟨rfl, hunread⟩ := Prod.mk.inj hread
    by_cases hnil : unread = []
    · subst hnil
      obtain ⟨c, rest, hhead, -⟩ := htoken.head
      rw [hcs, List.append_nil, closed_append_iff _ (by rw [hhead]; exact List.cons_ne_nil _ _)]
        at hclosed
      rw [Token.scan_of_none rfl]
      cases htoken with
      | number => exact ⟨_, rfl⟩
      | operator symbol => exact absurd (by cases symbol <;> simp [Closed, Symbol.toChar]) hclosed
      | openParen | closeParen => exact absurd (by simp [Closed]) hclosed
    · rw [hcs, closed_append_iff _ hnil] at hclosed
      obtain ⟨x, hx⟩ := ih (Prod.ext rfl hunread) hclosed
      refine ⟨x, ?_⟩
      rw [List.getLast?_cons, hx]
      rfl

/-- A text that a literal could go on into begins with a number, if it begins with a token. -/
theorem exists_number_of_not_ends {cs : List Char} {token : Token} (hends : ¬ Ends cs)
    (hfirst : (Token.scan cs).1.head? = some token) : ∃ x, token = .number x := by
  cases cs with
  | nil => exact absurd ends_nil hends
  | cons c cs =>
    have hblank : isBlank c = false := Bool.eq_false_iff.2 fun hblank => hends (ends_blank hblank cs)
    have hskip := skipBlanks_cons hblank cs
    have hc : (c.isDigit = true ∨ c = '.') ∨ c = 'e' ∨ c = 'E' := by
      by_contra hc
      exact hends fun d hd => by
        cases hd
        simpa [not_or, and_assoc] using hc
    rcases hc with hc | hmark
    · cases hread : Literal.read? (c :: cs) with
      | none =>
        rw [Token.scan_of_none (by rw [hskip, Token.read?_of_begins hc, hread]; rfl)] at hfirst
        contradiction
      | some p =>
        rw [Token.scan_of_some (by rw [hskip, Token.read?_of_begins hc, hread]; rfl)] at hfirst
        exact ⟨_, (Option.some.inj hfirst).symm⟩
    · have hnone : Token.read? (c :: cs) = none := by
        rcases hmark with rfl | rfl <;> rfl
      rw [Token.scan_of_none (hskip.symm ▸ hnone)] at hfirst
      contradiction

/-! ### Texts -/

/-- The reading of a text from that of what it ends in. -/
theorem Reading.ofText_of_scan {text rest : String} {before : List Char} {tokens : List Token}
    (htext : text.toList = before ++ rest.toList)
    (hscan : Token.scan text.toList =
      (tokens ++ (Token.scan rest.toList).1, (Token.scan rest.toList).2)) :
    ofText text = ⟨tokens ++ (ofText rest).tokens,
      (ofText rest).error.map fun e => ⟨before.length + e.position, e.rest⟩⟩ := by
  obtain ⟨consumed, hrest, -⟩ := Token.exists_scan_append rest.toList
  by_cases hnil : (Token.scan rest.toList).2 = []
  · simp only [ofText, hscan, hnil, if_true, Option.map_none]
  · have htext' : text.toList = (before ++ consumed) ++ (Token.scan rest.toList).2 := by
      rw [htext, List.append_assoc, ← hrest]
    rw [reading_of_scan htext' hscan hnil, reading_of_scan hrest rfl hnil]
    simp

theorem tokenize_eq_ok_iff_reading (text : String) (tokens : List Token) :
    tokenize text = .ok tokens ↔ Reading.ofText text = ⟨tokens, none⟩ := by
  rw [tokenize]
  generalize Reading.ofText text = reading
  obtain ⟨read, _ | e⟩ := reading <;> simp

theorem tokenize_eq_error_iff_reading (text : String) (e : LexError) :
    tokenize text = .error e ↔ (Reading.ofText text).error = some e := by
  rw [tokenize]
  generalize Reading.ofText text = reading
  obtain ⟨read, _ | e⟩ := reading <;> simp

theorem Reading.ofText_append {a w b : String} {as : List Token} (ha : tokenize a = .ok as)
    (hw : AreBlanks w.toList) (hapart : w ≠ "" ∨ Apart a.toList b.toList) :
    ofText (a ++ w ++ b) = ⟨as ++ (ofText b).tokens,
      (ofText b).error.map fun e => ⟨a.length + w.length + e.position, e.rest⟩⟩ := by
  rw [tokenize_eq_ok_iff] at ha
  have htext : (a ++ w ++ b).toList = a.toList ++ (w.toList ++ b.toList) := by simp
  have hblanks : Token.scan (w.toList ++ b.toList) = Token.scan b.toList :=
    Token.scan_eq_of_skipBlanks (skipBlanks_append hw _)
  have happart : Apart a.toList (w.toList ++ b.toList) := by
    cases hchars : w.toList with
    | nil => exact hapart.resolve_left fun hne => hne (String.toList_eq_nil_iff.1 hchars)
    | cons c cs => exact .inr (ends_blank (hw c (by simp [hchars])) _)
  have hscan : Token.scan (a ++ w ++ b).toList =
      (as ++ (Token.scan b.toList).1, (Token.scan b.toList).2) := by
    rw [htext, Token.scan_append_of_apart (congrArg Prod.snd ha) happart, ha, hblanks]
  have hsplit : (a ++ w ++ b).toList = (a.toList ++ w.toList) ++ b.toList := by
    rw [htext, List.append_assoc]
  have hread := ofText_of_scan hsplit hscan
  rwa [List.length_append, String.length_toList, String.length_toList] at hread

/-- **A text goes on being read where one before it ends.** Blanks between the two keep them
apart, and so does every end but a digit or a point and every beginning but a digit, a point
or a mark. The tokens are then those of the one and the other, and reading stops where it
stops in the second. Between tokens that are not both numbers any blanks do, and none. -/
theorem tokenize_append (a b : String) (as : List Token) (ha : tokenize a = .ok as) :
    (∀ w : String, AreBlanks w.toList →
      (w ≠ "" ∨ (∀ c ∈ a.toList.getLast?, c.isDigit = false ∧ c ≠ '.') ∨
        ∀ c ∈ b.toList.head?, c.isDigit = false ∧ c ≠ '.' ∧ c ≠ 'e' ∧ c ≠ 'E') →
      (∀ bs, tokenize b = .ok bs → tokenize (a ++ w ++ b) = .ok (as ++ bs)) ∧
      ∀ e, tokenize b = .error e →
        tokenize (a ++ w ++ b) = .error ⟨a.length + w.length + e.position, e.rest⟩ ∧
          (Reading.ofText (a ++ w ++ b)).tokens = as ++ (Reading.ofText b).tokens) ∧
    ∀ s ∈ as.getLast?, ∀ t ∈ (Reading.ofText b).tokens.head?,
      ∀ w w' : String, AreBlanks w.toList → AreBlanks w'.toList →
        (w ≠ "" ∧ w' ≠ "" ∨ ¬ ((∃ x, s = .number x) ∧ ∃ y, t = .number y)) →
        (Reading.ofText (a ++ w ++ b)).tokens = (Reading.ofText (a ++ w' ++ b)).tokens ∧
          (Reading.ofText (a ++ w ++ b)).error.map (·.rest) =
            (Reading.ofText (a ++ w' ++ b)).error.map (·.rest) := by
  refine ⟨fun w hw hapart => ?_, fun s hs t ht w w' hw hw' hbetween => ?_⟩
  · have hread := Reading.ofText_append ha hw hapart
    refine ⟨fun bs hb => ?_, fun e he => ?_⟩
    · rw [tokenize_eq_ok_iff_reading] at hb ⊢
      rw [hread, hb]
      rfl
    · rw [tokenize_eq_error_iff_reading] at he ⊢
      rw [hread, he]
      exact ⟨rfl, rfl⟩
  · have hapart : (w ≠ "" ∧ w' ≠ "") ∨ Apart a.toList b.toList := by
      refine hbetween.imp_right fun hnumbers => ?_
      by_contra hrun
      obtain ⟨hclosed, hends⟩ := not_or.1 hrun
      obtain ⟨x, hx⟩ := exists_number_of_not_closed ((tokenize_eq_ok_iff a as).1 ha) hclosed
      rw [Option.mem_def, hx] at hs
      exact hnumbers ⟨⟨x, (Option.some.inj hs).symm⟩, exists_number_of_not_ends hends ht⟩
    rw [Reading.ofText_append ha hw (hapart.imp_left And.left),
      Reading.ofText_append ha hw' (hapart.imp_left And.right)]
    refine ⟨rfl, ?_⟩
    rw [Option.map_map, Option.map_map]
    rfl

/-- A point before a point, kept apart by the sign between them, in a text that is not read to
its end. -/
theorem tokenize_append_points :
    tokenize "2.-" = .ok [.number 2, .operator .minus] ∧ AreBlanks "".toList ∧
      (∀ c ∈ "2.-".toList.getLast?, c.isDigit = false ∧ c ≠ '.') ∧
      tokenize ".5e %" = .error ⟨2, "e %"⟩ ∧ tokenize ("2.-" ++ "" ++ ".5e %") = .error ⟨5, "e %"⟩ ∧
      (Reading.ofText ("2.-" ++ "" ++ ".5e %")).tokens = [.number 2, .operator .minus, .number 0.5] := by
  have ha : tokenize "2.-" = .ok [.number 2, .operator .minus] := by decide +kernel
  have hb : tokenize ".5e %" = .error ⟨2, "e %"⟩ := by decide +kernel
  have htokens : (Reading.ofText ".5e %").tokens = [.number 0.5] := by decide +kernel
  have hclosed : ∀ c ∈ "2.-".toList.getLast?, c.isDigit = false ∧ c ≠ '.' := by
    intro c hc
    cases hc
    decide
  have hblanks : AreBlanks "".toList := List.forall_mem_nil _
  obtain ⟨herror, hread⟩ :=
    ((tokenize_append "2.-" ".5e %" _ ha).1 "" hblanks (.inr (.inl hclosed))).2 _ hb
  exact ⟨ha, hblanks, hclosed, hb, herror, by rw [hread, htokens]; rfl⟩

end Calculator
