import Calculator.Proofs.Token.Munch

/-! Where reading stops.

What is read off a text before the place where reading stops does not depend on what comes
after it: cut the text there or anywhere later, and the same tokens are read and reading
stops in the same place (`exists_scan_append`). So a text that is not a sequence of tokens
stops being one at the end of its longest beginning that is (`tokenize_error_longest`).
A beginning shorter than that need not be one: `1e` is none, and `1e5` is. -/
namespace Calculator
open Text

/-! ### Cutting a text short -/

theorem IsLongest.of_isPrefix {lexeme shorter longer : List Char} (h : IsLongest lexeme longer)
    (hbegins : lexeme <+: shorter) (hcut : shorter <+: longer) : IsLongest lexeme shorter where
  begins := hbegins
  isLexeme := h.isLexeme
  longest other token htoken hother := h.longest other token htoken (hother.trans hcut)

/-- No blanks come first after those at the front have been skipped, wherever the rest is cut. -/
theorem skipBlanks_of_isPrefix {cs ds : List Char} (h : ds <+: skipBlanks cs) :
    skipBlanks ds = ds := by
  cases ds with
  | nil => rfl
  | cons d ds =>
    obtain ⟨more, hmore⟩ := h
    have hhead : (skipBlanks cs).head? = some d := by rw [← hmore]; rfl
    have hblank := List.head?_dropWhile_not isBlank cs
    rw [← skipBlanks, hhead] at hblank
    exact skipBlanks_cons (by simpa using hblank) ds

namespace Token

theorem read?_of_isPrefix_of_none {cs ds : List Char} (h : read? cs = none) (hcut : ds <+: cs) :
    read? ds = none := by
  rw [read?_eq_none_iff] at h ⊢
  exact fun lexeme token htoken hbegins => h lexeme token htoken (hbegins.trans hcut)

/-- A token is read the same if the text is cut after its lexeme. -/
theorem read?_of_isPrefix_of_some {cs rest : List Char} {token : Token}
    (h : read? cs = some (token, rest)) :
    ∃ lexeme, cs = lexeme ++ rest ∧
      ∀ cut, cut <+: rest → read? (lexeme ++ cut) = some (token, cut) := by
  obtain ⟨lexeme, heq, hlongest, htoken⟩ := read?_eq_some_iff.1 h
  refine ⟨lexeme, heq, fun cut hcut => read?_eq_some_iff.2 ⟨lexeme, rfl, ?_, htoken⟩⟩
  refine hlongest.of_isPrefix (List.prefix_append lexeme cut) ?_
  rw [heq]
  exact (List.prefix_append_right_inj lexeme).2 hcut

/-- **What is read does not depend on what is not.** Wherever the unread rest is cut, the same
tokens are read before it and none of it is. -/
theorem exists_scan_append (cs : List Char) :
    ∃ consumed, cs = consumed ++ (scan cs).2 ∧
      ∀ cut, cut <+: (scan cs).2 → scan (consumed ++ cut) = ((scan cs).1, cut) := by
  have hblanks (cs : List Char) : AreBlanks (cs.takeWhile isBlank) := fun _ hc =>
    List.mem_takeWhile_imp hc
  induction cs using scan.induct with
  | case1 cs hread =>
    rw [scan_of_none hread]
    refine ⟨cs.takeWhile isBlank, List.takeWhile_append_dropWhile.symm, fun cut hcut => ?_⟩
    have hskip : skipBlanks (cs.takeWhile isBlank ++ cut) = cut := by
      rw [skipBlanks_append (hblanks cs), skipBlanks_of_isPrefix hcut]
    have hnone : read? (skipBlanks (cs.takeWhile isBlank ++ cut)) = none := by
      rw [hskip]
      exact read?_of_isPrefix_of_none hread hcut
    rw [scan_of_none hnone, hskip]
  | case2 cs token rest hread _ _ _ ih =>
    obtain ⟨lexeme, heq, hlexeme⟩ := read?_of_isPrefix_of_some hread
    obtain ⟨consumed, hrest, hcuts⟩ := ih
    rw [scan_of_some hread]
    refine ⟨cs.takeWhile isBlank ++ (lexeme ++ consumed), ?_, fun cut hcut => ?_⟩
    · rw [List.append_assoc, List.append_assoc, ← hrest, ← heq]
      exact List.takeWhile_append_dropWhile.symm
    · have hcut' : consumed ++ cut <+: rest := by
        rw [hrest]
        exact (List.prefix_append_right_inj consumed).2 hcut
      have hprefix : lexeme ++ (consumed ++ cut) <+: skipBlanks cs := by
        rw [heq]
        exact (List.prefix_append_right_inj lexeme).2 hcut'
      have hskip : skipBlanks (cs.takeWhile isBlank ++ (lexeme ++ consumed) ++ cut) =
          lexeme ++ (consumed ++ cut) := by
        rw [List.append_assoc, List.append_assoc, skipBlanks_append (hblanks cs),
          skipBlanks_of_isPrefix hprefix]
      have hsome : read? (skipBlanks (cs.takeWhile isBlank ++ (lexeme ++ consumed) ++ cut)) =
          some (token, consumed ++ cut) := by
        rw [hskip]
        exact hlexeme _ hcut'
      rw [scan_of_some hsome, hcuts cut hcut]

end Token

/-! ### The place -/

/-- A text that is read up to an unread rest stops where that begins. -/
theorem reading_of_scan {text : String} {consumed unread : List Char} {tokens : List Token}
    (htext : text.toList = consumed ++ unread) (hscan : Token.scan text.toList = (tokens, unread))
    (hne : unread ≠ []) :
    Reading.ofText text = ⟨tokens, some ⟨consumed.length, String.ofList unread⟩⟩ := by
  have hposition : text.toList.length - unread.length = consumed.length := by
    rw [htext, List.length_append, Nat.add_sub_cancel]
  simp only [Reading.ofText, hscan, hposition, if_neg hne]

theorem tokenize_eq_error_iff (text : String) (e : LexError) :
    tokenize text = .error e ↔
      ∃ consumed unread, unread ≠ [] ∧ text.toList = consumed ++ unread ∧
        (Token.scan text.toList).2 = unread ∧ e = ⟨consumed.length, String.ofList unread⟩ := by
  constructor
  · intro h
    obtain ⟨consumed, htext, -⟩ := Token.exists_scan_append text.toList
    have hne : (Token.scan text.toList).2 ≠ [] := by
      intro hnil
      rw [(tokenize_eq_ok_iff text _).2 (Prod.ext rfl hnil)] at h
      contradiction
    rw [tokenize, reading_of_scan htext rfl hne] at h
    cases h
    exact ⟨consumed, _, hne, htext, rfl, rfl⟩
  · rintro ⟨consumed, _, hne, htext, rfl, rfl⟩
    rw [tokenize, reading_of_scan htext rfl hne]

/-- The first so many characters. -/
def Text.beginning (text : String) (n : Nat) : String :=
  String.ofList (text.toList.take n)

/-- **A text stops being tokens at the end of its longest beginning that is tokens**, and the
tokens of that beginning are what is read before. -/
theorem tokenize_error_longest (text : String) (e : LexError) (h : tokenize text = .error e) :
    e.position < text.length ∧
      (∃ tokens, Reading.ofText text = ⟨tokens, some e⟩ ∧
        tokenize (beginning text e.position) = .ok tokens) ∧
      ∀ k tokens, tokenize (beginning text k) = .ok tokens → k ≤ e.position := by
  obtain ⟨consumed, unread, hne, htext, hunread, rfl⟩ := (tokenize_eq_error_iff text e).1 h
  obtain ⟨consumed', hsplit, hcuts⟩ := Token.exists_scan_append text.toList
  rw [hunread] at hsplit hcuts
  obtain rfl : consumed = consumed' := List.append_cancel_right (htext.symm.trans hsplit)
  -- A beginning is cut before the unread rest or within it.
  have hbeginning (k : Nat) (hk : consumed.length ≤ k) :
      Token.scan (beginning text k).toList =
        ((Token.scan text.toList).1, unread.take (k - consumed.length)) := by
    rw [beginning, String.toList_ofList, htext, List.take_append, List.take_of_length_le hk, ← htext]
    exact hcuts _ (List.take_prefix _ _)
  refine ⟨?_, ⟨(Token.scan text.toList).1, ?_, ?_⟩, fun k tokens hk => ?_⟩
  · have hlength := congrArg List.length htext
    have hpos := List.length_pos_iff.2 hne
    rw [String.length_toList, List.length_append] at hlength
    show consumed.length < text.length
    omega
  · exact reading_of_scan htext (Prod.ext rfl hunread) hne
  · rw [tokenize_eq_ok_iff, hbeginning _ (Nat.le_refl _), Nat.sub_self, List.take_zero]
  · by_contra hlonger
    have hlt : consumed.length < k := Nat.lt_of_not_le hlonger
    rw [tokenize_eq_ok_iff, hbeginning k (Nat.le_of_lt hlt)] at hk
    have hnil := (List.take_eq_nil_iff.1 (Prod.mk.inj hk).2).resolve_right hne
    omega

/-- An exponent that is cut off and one that never was complete. -/
theorem tokenize_error_longest_exponent :
    tokenize "1e5+1e " = .error ⟨5, "e "⟩ ∧
      tokenize (beginning "1e5+1e " 5) = .ok [.number 100000, .operator .plus, .number 1] ∧
      (∃ e, tokenize (beginning "1e5+1e " 2) = .error e) ∧
      ∀ k tokens, tokenize (beginning "1e5+1e " k) = .ok tokens → k ≤ 5 := by
  have herror : tokenize "1e5+1e " = .error ⟨5, "e "⟩ := by decide +kernel
  have hincomplete : tokenize (beginning "1e5+1e " 2) = .error ⟨1, "e"⟩ := by decide +kernel
  have hreading : (Reading.ofText "1e5+1e ").tokens =
      [.number 100000, .operator .plus, .number 1] := by decide +kernel
  obtain ⟨-, ⟨tokens, hread, htokens⟩, hlongest⟩ := tokenize_error_longest _ _ herror
  rw [hread] at hreading
  exact ⟨herror, hreading ▸ htokens, ⟨_, hincomplete⟩, hlongest⟩

end Calculator
