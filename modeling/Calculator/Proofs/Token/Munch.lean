import Calculator.Proofs.Token.Lexeme
import Mathlib.Data.List.Forall2

/-! Maximal munch.

A text of tokens is blanks and then pieces, each a lexeme with the blanks after it, where
every lexeme is the longest that the text begins with from there on (`IsCut`). A text is
cut so in one way at most, and reading it succeeds exactly if it can be, with the tokens of
the lexemes (`tokenize_eq_ok_iff_isCut`). -/
namespace Calculator
open Text

def AreBlanks (cs : List Char) : Prop := ∀ c ∈ cs, isBlank c = true

/-- A lexeme and the blanks after it. -/
structure Piece where
  lexeme : List Char
  blanks : List Char
deriving DecidableEq, Repr

/-- The text consists of the pieces, and each lexeme is the longest one there. -/
inductive Munches : List Char → List Piece → Prop where
  | nil : Munches [] []
  | cons {lexeme blanks rest pieces} : IsLongest lexeme (lexeme ++ (blanks ++ rest)) →
      AreBlanks blanks → Munches rest pieces →
      Munches (lexeme ++ (blanks ++ rest)) (⟨lexeme, blanks⟩ :: pieces)

/-- The text consists of the blanks and the pieces. -/
def IsCut (text blanks : List Char) (pieces : List Piece) : Prop :=
  AreBlanks blanks ∧ ∃ rest, text = blanks ++ rest ∧ Munches rest pieces

/-! ### Blanks between lexemes -/

theorem Lexeme.head {text : List Char} {token : Token} (h : Lexeme text token) :
    ∃ c cs, text = c :: cs ∧ isBlank c = false := by
  cases h with
  | number htext =>
    obtain ⟨c, cs, rfl, hdigit | rfl⟩ := htext.head
    · exact ⟨c, cs, rfl, isBlank_of_isDigit hdigit⟩
    · exact ⟨'.', cs, rfl, rfl⟩
  | operator symbol => exact ⟨_, [], rfl, by cases symbol <;> rfl⟩
  | openParen => exact ⟨'(', [], rfl, rfl⟩
  | closeParen => exact ⟨')', [], rfl, rfl⟩

theorem skipBlanks_append {blanks : List Char} (h : AreBlanks blanks) (rest : List Char) :
    skipBlanks (blanks ++ rest) = skipBlanks rest :=
  List.dropWhile_append_of_pos h

theorem Lexeme.skipBlanks_append {text : List Char} {token : Token} (h : Lexeme text token)
    (rest : List Char) : skipBlanks (text ++ rest) = text ++ rest := by
  obtain ⟨c, cs, rfl, hblank⟩ := h.head
  exact skipBlanks_cons hblank (cs ++ rest)

theorem IsLongest.skipBlanks_eq {lexeme text : List Char} (h : IsLongest lexeme text) :
    skipBlanks text = text := by
  obtain ⟨token, htoken⟩ := h.isLexeme
  obtain ⟨rest, rfl⟩ := h.begins
  exact htoken.skipBlanks_append rest

theorem Munches.skipBlanks_eq {text : List Char} {pieces : List Piece} (h : Munches text pieces) :
    skipBlanks text = text := by
  cases h with
  | nil => rfl
  | cons hlongest => exact hlongest.skipBlanks_eq

/-- The pieces begin where the blanks end. -/
theorem IsCut.munches {text blanks : List Char} {pieces : List Piece} (h : IsCut text blanks pieces) :
    text = blanks ++ skipBlanks text ∧ Munches (skipBlanks text) pieces := by
  obtain ⟨hblanks, rest, rfl, hrest⟩ := h
  rw [skipBlanks_append hblanks, hrest.skipBlanks_eq]
  exact ⟨rfl, hrest⟩

theorem isCut_of_munches {text : List Char} {pieces : List Piece}
    (h : Munches (skipBlanks text) pieces) : IsCut text (text.takeWhile isBlank) pieces :=
  ⟨fun _ hc => List.mem_takeWhile_imp hc, _, List.takeWhile_append_dropWhile.symm, h⟩

theorem Munches.unique {text : List Char} {pieces pieces' : List Piece} (h : Munches text pieces)
    (h' : Munches text pieces') : pieces = pieces' := by
  induction h generalizing pieces' with
  | nil =>
    generalize htext : ([] : List Char) = text at h'
    cases h' with
    | nil => rfl
    | cons hlongest =>
      obtain ⟨token, htoken⟩ := hlongest.isLexeme
      obtain ⟨c, cs, rfl, -⟩ := htoken.head
      contradiction
  | @cons lexeme blanks rest pieces hlongest hblanks hrest ih =>
    generalize htext : lexeme ++ (blanks ++ rest) = text at h' hlongest
    cases h' with
    | nil =>
      obtain ⟨token, htoken⟩ := hlongest.isLexeme
      obtain ⟨c, cs, rfl, -⟩ := htoken.head
      contradiction
    | @cons lexeme' blanks' rest' pieces' hlongest' hblanks' hrest' =>
      obtain rfl := hlongest.unique hlongest'
      have hafter := List.append_cancel_left htext
      have hskip := congrArg skipBlanks hafter
      rw [skipBlanks_append hblanks, skipBlanks_append hblanks', hrest.skipBlanks_eq,
        hrest'.skipBlanks_eq] at hskip
      subst hskip
      rw [List.append_cancel_right hafter, ih hrest']

/-! ### Reading -/

/-- The tokens of the pieces in order. -/
def AreTokensOf (pieces : List Piece) (tokens : List Token) : Prop :=
  List.Forall₂ (fun piece token => Lexeme piece.lexeme token) pieces tokens

namespace Token

theorem exists_munches_of_scan {cs : List Char} {tokens : List Token}
    (h : scan cs = (tokens, [])) :
    ∃ pieces, Munches (skipBlanks cs) pieces ∧ AreTokensOf pieces tokens := by
  induction cs using scan.induct generalizing tokens with
  | case1 cs hread =>
    rw [scan_of_none hread, Prod.mk.injEq] at h
    obtain ⟨rfl, hnil⟩ := h
    rw [hnil]
    exact ⟨[], .nil, .nil⟩
  | case2 cs token rest hread more unread hscan ih =>
    obtain ⟨lexeme, heq, hlongest, htoken⟩ := read?_eq_some_iff.1 hread
    rw [scan_of_some hread, hscan] at h
    cases h
    obtain ⟨pieces, hpieces, htokens⟩ := ih hscan
    have hcs : skipBlanks cs = lexeme ++ (rest.takeWhile isBlank ++ skipBlanks rest) := by
      rw [heq, skipBlanks, List.takeWhile_append_dropWhile]
    refine ⟨⟨lexeme, rest.takeWhile isBlank⟩ :: pieces, ?_, .cons htoken htokens⟩
    rw [hcs] at hlongest ⊢
    exact .cons hlongest (fun _ hc => List.mem_takeWhile_imp hc) hpieces

theorem scan_of_munches {cs : List Char} {pieces : List Piece} {tokens : List Token}
    (h : Munches cs pieces) (htokens : AreTokensOf pieces tokens) : scan cs = (tokens, []) := by
  induction h generalizing tokens with
  | nil =>
    cases htokens
    exact scan_of_none rfl
  | @cons lexeme blanks rest pieces hlongest hblanks hrest ih =>
    cases htokens with
    | @cons _ token _ tokens htoken htokens =>
      have hread := read?_eq_some_iff.2 ⟨lexeme, rfl, hlongest, htoken⟩
      rw [← hlongest.skipBlanks_eq] at hread
      have hafter : scan (blanks ++ rest) = scan rest :=
        scan_eq_of_skipBlanks (skipBlanks_append hblanks rest)
      rw [scan_of_some hread, hafter, ih htokens]

end Token

theorem tokenize_eq_ok_iff (text : String) (tokens : List Token) :
    tokenize text = .ok tokens ↔ Token.scan text.toList = (tokens, []) := by
  simp only [tokenize, Reading.ofText]
  generalize Token.scan text.toList = scanned
  obtain ⟨read, unread⟩ := scanned
  by_cases hnil : unread = [] <;> simp [hnil]

/-- **Reading is maximal munch.** It succeeds exactly on the texts that can be cut into blanks and
longest lexemes, with the tokens of the lexemes, and there is only one such cut. -/
theorem tokenize_eq_ok_iff_isCut (text : String) :
    (∀ tokens, tokenize text = .ok tokens ↔
      ∃ blanks pieces, IsCut text.toList blanks pieces ∧ AreTokensOf pieces tokens) ∧
    ∀ blanks pieces blanks' pieces', IsCut text.toList blanks pieces →
      IsCut text.toList blanks' pieces' → blanks = blanks' ∧ pieces = pieces' := by
  refine ⟨fun tokens => ?_, fun blanks pieces blanks' pieces' h h' => ?_⟩
  · rw [tokenize_eq_ok_iff]
    constructor
    · intro h
      obtain ⟨pieces, hpieces, htokens⟩ := Token.exists_munches_of_scan h
      exact ⟨_, pieces, isCut_of_munches hpieces, htokens⟩
    · rintro ⟨blanks, pieces, hcut, htokens⟩
      have hskip : skipBlanks (skipBlanks text.toList) = skipBlanks text.toList :=
        hcut.munches.2.skipBlanks_eq
      rw [← Token.scan_eq_of_skipBlanks hskip]
      exact Token.scan_of_munches hcut.munches.2 htokens
  · refine ⟨?_, h.munches.2.unique h'.munches.2⟩
    exact List.append_cancel_right (h.munches.1.symm.trans h'.munches.1)

/-- A point that ends a literal, an exponent after it, and a point that begins the next one. -/
theorem tokenize_eq_ok_iff_isCut_points :
    tokenize "1.e5.5 +" = .ok [.number 100000, .number 0.5, .operator .plus] ∧
      ∃ blanks pieces, IsCut "1.e5.5 +".toList blanks pieces ∧
        AreTokensOf pieces [.number 100000, .number 0.5, .operator .plus] ∧
        ∀ blanks' pieces', IsCut "1.e5.5 +".toList blanks' pieces' →
          blanks' = blanks ∧ pieces' = pieces := by
  have hread : tokenize "1.e5.5 +" = .ok [.number 100000, .number 0.5, .operator .plus] := by
    decide +kernel
  obtain ⟨hiff, hunique⟩ := tokenize_eq_ok_iff_isCut "1.e5.5 +"
  obtain ⟨blanks, pieces, hcut, htokens⟩ := (hiff _).1 hread
  exact ⟨hread, blanks, pieces, hcut, htokens, fun _ _ h => hunique _ _ _ _ h hcut⟩

end Calculator
