import Calculator.Proofs.Calculation
import Calculator.Proofs.Expr.RoundTrip
import Calculator.Proofs.Token.Rounding
import Calculator.Proofs.Token.Stop
import Calculator.Proofs.Yard.Group

/-! Trees that are not read back.

An infinity and NaN have a word for their text, and no token begins with a letter. So a tree
with such a constant is printed as a text that is read up to the first of these words: what
is printed before it are tokens (`Shows.scans_before`), and tokens have none of the letters
that the words begin with (`Token.mem_of_scan`). Reading stops at the word of the constant
furthest to the left, behind its sign (`ofText_print_of_shows`).

A text that was read has such a constant exactly if one of its literals is too large for a
double (`hasOverflow_iff`), since no literal is signed or NaN. If none is, the tree is printed
as a text that is read as the tree (`ofText_print_refused`). -/
namespace Calculator
open Binary64 Literal Text

/-! ### The characters of tokens -/

theorem Lexeme.mem {text : List Char} {token : Token} (h : Lexeme text token) :
    ∀ c ∈ text, c.isDigit = true ∨ c ∈ ['.', 'e', 'E', '+', '-', '*', '/', '^', '(', ')'] := by
  intro c hc
  cases h with
  | number htext =>
    refine (htext.mem c hc).imp_right fun hmark => ?_
    exact List.mem_append_left ['*', '/', '^', '(', ')'] hmark
  | operator symbol =>
    obtain rfl := List.mem_singleton.1 hc
    cases symbol <;> exact .inr (by decide)
  | openParen | closeParen =>
    obtain rfl := List.mem_singleton.1 hc
    exact .inr (by decide)

/-- A text that is read to its end has blanks and characters of tokens only. -/
theorem Token.mem_of_scan {cs : List Char} (h : (scan cs).2 = []) : ∀ c ∈ cs,
    isBlank c = true ∨ c.isDigit = true ∨
      c ∈ ['.', 'e', 'E', '+', '-', '*', '/', '^', '(', ')'] := by
  induction cs using scan.induct with
  | case1 cs hread =>
    rw [scan_of_none hread] at h
    intro c hc
    exact .inl (List.dropWhile_eq_nil_iff.1 h c hc)
  | case2 cs token rest hread _ _ _ ih =>
    obtain ⟨lexeme, heq, htoken⟩ := exists_lexeme_of_read? hread
    rw [scan_of_some hread] at h
    have hcs : cs = cs.takeWhile isBlank ++ (lexeme ++ rest) := by
      rw [← heq]
      exact List.takeWhile_append_dropWhile.symm
    intro c hc
    rw [hcs, List.mem_append, List.mem_append] at hc
    rcases hc with hc | hc | hc
    · exact .inl (List.mem_takeWhile_imp hc)
    · exact .inr (htoken.mem c hc)
    · exact ih h c hc

/-- Whether a character is one that the words for an infinity and for NaN begin with. -/
def beginsWord (c : Char) : Bool :=
  c == 'i' || c == 'n'

theorem beginsWord_of_scan {cs : List Char} (h : (Token.scan cs).2 = []) :
    ∀ c ∈ cs, beginsWord c = false := by
  intro c hc
  have hchar := Token.mem_of_scan h c hc
  refine Bool.eq_false_iff.2 fun hword => ?_
  have hletter : c = 'i' ∨ c = 'n' := by simpa [beginsWord] using hword
  rcases hletter with rfl | rfl <;> revert hchar <;> decide

theorem Lexeme.exists_literal {text : List Char} {x : Float} (h : Lexeme text (.number x)) :
    ∃ l, IsText text l ∧ x = l.toDecimal.toFloat := by
  cases h with
  | number htext => exact ⟨_, htext, rfl⟩

/-! ### Words -/

/-- What is not finite is written as a word, perhaps behind a minus. -/
inductive IsWord : Float → String → String → Prop where
  | infinite {x} (negative : Bool) : Numeral.canonical x = Numeral.sign negative ++ "inf" →
      IsWord x (Numeral.sign negative) "inf"
  | nan {x} : Numeral.canonical x = "nan" → IsWord x "" "nan"

theorem exists_isWord {x : Float} (h : ¬ IsFinite x) : ∃ sign word, IsWord x sign word := by
  have hfloating := Numeral.canonical_eq_floating h
  cases hx : ofFloat x with
  | nan => exact ⟨_, _, .nan (by simp only [hfloating, Numeral.floating, hx])⟩
  | infinite negative =>
    exact ⟨_, _, .infinite negative (by simp only [hfloating, Numeral.floating, hx])⟩
  | finite negative rank => exact absurd ⟨negative, rank, hx⟩ h

namespace IsWord
variable {x : Float} {sign word : String}

theorem canonical_eq (h : IsWord x sign word) : Numeral.canonical x = sign ++ word := by
  cases h with
  | infinite _ h => exact h
  | nan h => rw [h, String.empty_append]

theorem scans_sign (h : IsWord x sign word) :
    ∃ tokens, ∀ rest, Token.Scans sign.toList tokens rest := by
  cases h with
  | infinite negative _ =>
    cases negative with
    | false => exact ⟨[], fun _ => rfl⟩
    | true => exact ⟨_, fun rest => Token.Scans.symbol .minus rest⟩
  | nan => exact ⟨[], fun _ => rfl⟩

/-- No token begins where the word does. -/
theorem scan_eq (h : IsWord x sign word) (after : List Char) :
    Token.scan (word.toList ++ after) = ([], word.toList ++ after) := by
  cases h <;> exact Token.scan_of_none rfl

theorem findIdx_eq (h : IsWord x sign word) (after : List Char) :
    (word.toList ++ after).findIdx beginsWord = 0 := by
  cases h <;> rfl

end IsWord

/-! ### Where a constant is shown -/

namespace Expr
open Token

/-- What `parenthesizeIf` puts in front. -/
def opening (condition : Bool) : String :=
  if condition then "(" else ""

/-- What `parenthesizeIf` puts behind. -/
def closing (condition : Bool) : String :=
  if condition then ")" else ""

theorem parenthesizeIf_eq (condition : Bool) (text : String) :
    parenthesizeIf condition text = opening condition ++ text ++ closing condition := by
  cases condition with
  | false => simp [parenthesizeIf, opening, closing]
  | true => rfl

theorem scans_opening (condition : Bool) :
    ∃ tokens, ∀ rest, Scans (opening condition).toList tokens rest := by
  cases condition with
  | false => exact ⟨[], fun _ => rfl⟩
  | true => exact ⟨_, Scans.openParen⟩

/-- `Shows e left x before after`: the tree has the constant, with these to the left of it, and
it is printed between the texts. -/
inductive Shows : Expr → List Float → Float → String → String → Prop where
  | constant (x : Float) : Shows (.constant x) [] x "" ""
  | unary {e left x before after} (op : UnaryOp) : Shows e left x before after →
      Shows (.unary op e) left x
        (String.singleton op.symbol.toChar ++ opening e.needsParensAfterSign ++ before)
        (after ++ closing e.needsParensAfterSign)
  | left {l left x before after} (op : BinaryOp) (r : Expr) : Shows l left x before after →
      Shows (.binary op l r) left x (opening (l.needsParensBefore op) ++ before)
        (after ++ closing (l.needsParensBefore op) ++ spaced op ++
          parenthesizeIf (r.needsParensAfter op) r.print)
  | right {r left x before after} (op : BinaryOp) (l : Expr) : Shows r left x before after →
      Shows (.binary op l r) (l.constants ++ left) x
        (parenthesizeIf (l.needsParensBefore op) l.print ++ spaced op ++
          opening (r.needsParensAfter op) ++ before)
        (after ++ closing (r.needsParensAfter op))

namespace Shows
variable {e : Expr} {left : List Float} {x : Float} {before after : String}

theorem print_eq (h : Shows e left x before after) :
    e.print = before ++ Numeral.canonical x ++ after := by
  induction h with
  | constant x => simp [print]
  | unary op _ ih | left op r _ ih | right op l _ ih =>
    simp only [print, parenthesizeIf_eq, ih, String.append_assoc]

theorem exists_constants_eq (h : Shows e left x before after) :
    ∃ right, e.constants = left ++ x :: right := by
  induction h with
  | constant x => exact ⟨[], rfl⟩
  | unary _ _ ih => exact ih
  | left op r _ ih =>
    obtain ⟨right, hright⟩ := ih
    exact ⟨right ++ r.constants, by simp [constants, hright]⟩
  | right op l _ ih =>
    obtain ⟨right, hright⟩ := ih
    exact ⟨right, by simp [constants, hright]⟩

/-- **Up to the first word, a printed tree is tokens**, whatever comes then. -/
theorem scans_before (h : Shows e left x before after) (hgenuine : e.IsGenuine)
    (hleft : ∀ y ∈ left, IsFinite y) : ∃ tokens, ∀ rest, Scans before.toList tokens rest := by
  induction h with
  | constant x => exact ⟨[], fun _ => rfl⟩
  | @unary e _ _ _ _ op _ ih =>
    obtain ⟨opened, hopened⟩ := scans_opening e.needsParensAfterSign
    obtain ⟨tokens, htokens⟩ := ih hgenuine hleft
    refine ⟨[.operator op.symbol] ++ opened ++ tokens, fun rest => ?_⟩
    rw [String.toList_append, String.toList_append, String.toList_singleton]
    exact ((Scans.symbol op.symbol _).append (hopened _)).append (htokens rest)
  | @left l _ _ _ _ op r _ ih =>
    obtain ⟨opened, hopened⟩ := scans_opening (l.needsParensBefore op)
    obtain ⟨tokens, htokens⟩ := ih hgenuine.1 hleft
    refine ⟨opened ++ tokens, fun rest => ?_⟩
    rw [String.toList_append]
    exact (hopened _).append (htokens rest)
  | @right r _ _ _ _ op l _ ih =>
    obtain ⟨hfinite, hleft⟩ := List.forall_mem_append.1 hleft
    obtain ⟨opened, hopened⟩ := scans_opening (r.needsParensAfter op)
    obtain ⟨tokens, htokens⟩ := ih hgenuine.2 hleft
    refine ⟨l.norm.tokensIn op.left ++ [.operator op.symbol] ++ opened ++ tokens, fun rest => ?_⟩
    have hoperand (rest : List Char) := scans_operand op.level_left_le_signed
      (needsParensBefore_eq op l) (scans_print hgenuine.1 hfinite) (ends_spaced op rest)
    simp only [String.toList_append]
    exact (((hoperand _).append (scans_spaced op _)).append (hopened _)).append (htokens rest)

end Shows

/-- The constant furthest to the left that is not finite. -/
theorem exists_shows {e : Expr} (h : ∃ x ∈ e.constants, ¬ IsFinite x) :
    ∃ left x before after, Shows e left x before after ∧ (∀ y ∈ left, IsFinite y) ∧
      ¬ IsFinite x := by
  induction e with
  | constant x =>
    obtain ⟨y, hy, hinfinite⟩ := h
    obtain rfl := List.mem_singleton.1 hy
    exact ⟨[], y, _, _, .constant y, by simp, hinfinite⟩
  | unary op e ih =>
    obtain ⟨left, x, _, _, hshows, hrest⟩ := ih h
    exact ⟨left, x, _, _, hshows.unary op, hrest⟩
  | binary op l r ihl ihr =>
    by_cases hl : ∃ x ∈ l.constants, ¬ IsFinite x
    · obtain ⟨left, x, _, _, hshows, hrest⟩ := ihl hl
      exact ⟨left, x, _, _, hshows.left op r, hrest⟩
    · have hfinite : ∀ x ∈ l.constants, IsFinite x := fun x hx =>
        not_not.1 fun hinfinite => hl ⟨x, hx, hinfinite⟩
      obtain ⟨y, hy, hinfinite⟩ := h
      have hr : y ∈ r.constants :=
        (List.mem_append.1 hy).resolve_left fun hl => hinfinite (hfinite y hl)
      obtain ⟨left, x, _, _, hshows, hleft, hx⟩ := ihr ⟨y, hr, hinfinite⟩
      exact ⟨_, x, _, _, hshows.right op l, List.forall_mem_append.2 ⟨hfinite, hleft⟩, hx⟩
  | foreign text =>
    obtain ⟨y, hy, -⟩ := h
    contradiction

/-! ### Reading stops at the word -/

/-- **Reading stops at the first word**, and there the first of its letters is. -/
theorem ofText_print_of_shows {e : Expr} {left : List Float} {x : Float}
    {before after sign word : String} (hgenuine : e.IsGenuine) (hshows : Shows e left x before after)
    (hleft : ∀ y ∈ left, IsFinite y) (hword : IsWord x sign word) :
    (before ++ sign).length = e.print.toList.findIdx beginsWord ∧
      ofText e.print = .error (.lex ⟨(before ++ sign).length, word ++ after⟩) := by
  obtain ⟨tokens, hbefore⟩ := hshows.scans_before hgenuine hleft
  obtain ⟨signs, hsign⟩ := hword.scans_sign
  have htext : e.print.toList = (before ++ sign).toList ++ (word ++ after).toList := by
    rw [hshows.print_eq, hword.canonical_eq]
    simp only [String.toList_append, List.append_assoc]
  have hscans (rest : List Char) : Scans (before ++ sign).toList (tokens ++ signs) rest := by
    rw [String.toList_append]
    exact (hbefore _).append (hsign rest)
  constructor
  · have hclean : ∀ c ∈ (before ++ sign).toList, beginsWord c = false := by
      apply beginsWord_of_scan
      have hall := hscans []
      rw [Scans, List.append_nil] at hall
      rw [hall, scan_of_none rfl]
      rfl
    have hpassed := List.findIdx_eq_length_of_false hclean
    have hfirst : (word ++ after).toList.findIdx beginsWord = 0 := by
      rw [String.toList_append]
      exact hword.findIdx_eq _
    rw [htext, List.findIdx_append, hpassed, if_neg (Nat.lt_irrefl _), hfirst, Nat.zero_add,
      String.length_toList]
  · have hscan : scan e.print.toList = (tokens ++ signs, (word ++ after).toList) := by
      rw [htext, hscans, String.toList_append, hword.scan_eq, List.append_nil]
    have hne : (word ++ after).toList ≠ [] := by
      cases hword <;> simp
    apply ofText_of_lexError
    rw [tokenize, reading_of_scan htext hscan hne, String.ofList_toList, String.length_toList]

/-- Of the constants that are not finite, the one furthest to the left is where reading stops. -/
theorem exists_refused {e : Expr} (hgenuine : e.IsGenuine) (h : ∃ x ∈ e.constants, ¬ IsFinite x) :
    ∃ left x before sign word after, Shows e left x before after ∧ (∀ y ∈ left, IsFinite y) ∧
      ¬ IsFinite x ∧ IsWord x sign word ∧
      (before ++ sign).length = e.print.toList.findIdx beginsWord ∧
      ofText e.print = .error (.lex ⟨(before ++ sign).length, word ++ after⟩) := by
  obtain ⟨left, x, before, after, hshows, hleft, hx⟩ := exists_shows h
  obtain ⟨sign, word, hword⟩ := exists_isWord hx
  exact ⟨left, x, before, sign, word, after, hshows, hleft, hx, hword,
    ofText_print_of_shows hgenuine hshows hleft hword⟩

end Expr

/-! ### Literals that are too large -/

theorem Literal.isFinite_toFloat_iff (l : Literal) :
    IsFinite l.toDecimal.toFloat ↔ ¬ 2 ^ 1024 - 2 ^ 970 ≤ l.value := by
  have hrounds := l.roundsTo_toFloat
  rw [← isFinite_iff]
  constructor
  · intro hfinite hge
    rw [hrounds.infinite hge] at hfinite
    revert hfinite
    decide
  · exact fun hlt => hrounds.finite (not_le.1 hlt)

theorem exists_of_forall₂ {α β : Type} {R : α → β → Prop} {xs : List α} {ys : List β}
    (h : List.Forall₂ R xs ys) {x : α} (hx : x ∈ xs) : ∃ y ∈ ys, R x y := by
  induction h with
  | nil => contradiction
  | cons hhead _ ih =>
    rcases List.mem_cons.1 hx with rfl | hx
    · exact ⟨_, List.mem_cons_self, hhead⟩
    · obtain ⟨y, hy, hrel⟩ := ih hx
      exact ⟨y, List.mem_cons_of_mem _ hy, hrel⟩

namespace AreTokensOf
variable {pieces : List Piece} {tokens : List Token}

theorem exists_token (h : AreTokensOf pieces tokens) {piece : Piece} (hpiece : piece ∈ pieces) :
    ∃ token ∈ tokens, Lexeme piece.lexeme token :=
  exists_of_forall₂ h hpiece

theorem exists_piece (h : AreTokensOf pieces tokens) {token : Token} (htoken : token ∈ tokens) :
    ∃ piece ∈ pieces, Lexeme piece.lexeme token :=
  exists_of_forall₂ (List.Forall₂.flip h) htoken

end AreTokensOf

theorem Token.mem_numbers_iff {tokens : List Token} {x : Float} :
    x ∈ numbers tokens ↔ .number x ∈ tokens := by
  rw [numbers, List.mem_filterMap]
  constructor
  · rintro ⟨token, htoken, heq⟩
    cases token <;> cases heq
    exact htoken
  · exact fun h => ⟨_, h, rfl⟩

/-- A literal of the text is beyond the doubles: the largest of them is further from it than
`2 ^ 1024`, or as far. -/
def HasOverflow (text : String) : Prop :=
  ∃ blanks pieces, IsCut text.toList blanks pieces ∧
    ∃ piece ∈ pieces, ∃ l, IsText piece.lexeme l ∧ 2 ^ 1024 - 2 ^ 970 ≤ l.value

theorem hasOverflow_iff {text : String} {tokens : List Token} (h : tokenize text = .ok tokens) :
    HasOverflow text ↔ ∃ x ∈ Token.numbers tokens, ¬ IsFinite x := by
  obtain ⟨pieces, hpieces, htokens⟩ := Token.exists_munches_of_scan ((tokenize_eq_ok_iff _ _).1 h)
  constructor
  · rintro ⟨blanks, pieces', hcut, piece, hpiece, l, htext, hge⟩
    obtain rfl := hcut.munches.2.unique hpieces
    obtain ⟨token, htoken, hlexeme⟩ := htokens.exists_token hpiece
    obtain rfl := hlexeme.unique (.number htext)
    exact ⟨_, Token.mem_numbers_iff.2 htoken, fun hfinite => l.isFinite_toFloat_iff.1 hfinite hge⟩
  · rintro ⟨x, hx, hinfinite⟩
    obtain ⟨piece, hpiece, hlexeme⟩ := htokens.exists_piece (Token.mem_numbers_iff.1 hx)
    obtain ⟨l, htext, rfl⟩ := hlexeme.exists_literal
    rw [l.isFinite_toFloat_iff, not_not] at hinfinite
    exact ⟨_, pieces, isCut_of_munches hpieces, piece, hpiece, l, htext, hinfinite⟩

namespace Expr

/-- The constants of a tree that was read are literals, and no literal is signed. -/
theorem norm_eq_self_of_tokenize {text : String} {tokens : List Token} {e : Expr}
    (htext : tokenize text = .ok tokens) (hconstants : e.constants = Token.numbers tokens)
    (hfinite : ∀ x ∈ e.constants, IsFinite x) : e.norm = e := by
  obtain ⟨pieces, -, htokens⟩ := Token.exists_munches_of_scan ((tokenize_eq_ok_iff _ _).1 htext)
  refine (norm_eq_self_iff hfinite).2 fun x hx => ?_
  rw [hconstants, Token.mem_numbers_iff] at hx
  obtain ⟨piece, -, hlexeme⟩ := htokens.exists_piece hx
  obtain ⟨l, -, rfl⟩ := hlexeme.exists_literal
  obtain ⟨hle, hne, -⟩ := unsigned_ofRank l.toDecimal.rank_le
  exact ⟨hle, hne⟩

theorem ofText_print_of_not_hasOverflow {text : String} {e : Expr} (h : ofText text = .ok e)
    (hnot : ¬ HasOverflow text) : ofText e.print = .ok e := by
  obtain ⟨tokens, htokens, he⟩ := exists_tokens_of_ofText h
  have hconstants := (derives_of_ofTokens he).constants_eq
  have hfinite : ∀ x ∈ e.constants, IsFinite x := by
    rw [hasOverflow_iff htokens, ← hconstants] at hnot
    exact fun x hx => not_not.1 fun hinfinite => hnot ⟨x, hx, hinfinite⟩
  rw [ofText_print (isGenuine_of_ofTokens he) hfinite,
    norm_eq_self_of_tokenize htokens hconstants hfinite]

/-- **A tree with a constant that is not finite is printed as no tokens**, never as another tree:
reading stops at the first letter that a word begins with, behind the sign of the constant
furthest to the left. So what was read is read again from its print exactly if none of its
literals is too large, and as the same tree. -/
theorem ofText_print_refused :
    (∀ e : Expr, e.IsGenuine → (∃ x ∈ e.constants, x.isFinite = false) →
      ∃ left x right before sign word after, e.constants = left ++ x :: right ∧
        (∀ y ∈ left, y.isFinite = true) ∧ x.isFinite = false ∧ Shows e left x before after ∧
        IsWord x sign word ∧ e.print = before ++ sign ++ word ++ after ∧
        (before ++ sign).length = e.print.toList.findIdx beginsWord ∧
        ofText e.print = .error (.lex ⟨e.print.toList.findIdx beginsWord, word ++ after⟩)) ∧
    ∀ text e, ofText text = .ok e →
      ((∃ failure, ofText e.print = .error failure) ↔ HasOverflow text) ∧
        (¬ HasOverflow text → ofText e.print = .ok e) := by
  have hfinite_iff (x : Float) : x.isFinite = false ↔ ¬ IsFinite x := by
    rw [← isFinite_iff, Bool.not_eq_true]
  constructor
  · intro e hgenuine h
    simp only [hfinite_iff] at h ⊢
    obtain ⟨left, x, before, sign, word, after, hshows, hleft, hx, hword, hposition, hread⟩ :=
      exists_refused hgenuine h
    obtain ⟨right, hconstants⟩ := hshows.exists_constants_eq
    refine ⟨left, x, right, before, sign, word, after, hconstants,
      fun y hy => isFinite_iff.2 (hleft y hy), hx, hshows, hword, ?_, hposition, ?_⟩
    · rw [hshows.print_eq, hword.canonical_eq, ← String.append_assoc]
    · rw [← hposition]
      exact hread
  · intro text e h
    refine ⟨⟨fun ⟨failure, hfailure⟩ => ?_, fun hoverflow => ?_⟩, ofText_print_of_not_hasOverflow h⟩
    · by_contra hnot
      rw [ofText_print_of_not_hasOverflow h hnot] at hfailure
      contradiction
    · obtain ⟨tokens, htokens, he⟩ := exists_tokens_of_ofText h
      rw [hasOverflow_iff htokens, ← (derives_of_ofTokens he).constants_eq] at hoverflow
      obtain ⟨_, _, _, _, _, _, -, -, -, -, -, hread⟩ :=
        exists_refused (isGenuine_of_ofTokens he) hoverflow
      exact ⟨_, hread⟩

/-- A negative infinity behind an exponent and a parenthesis, and a literal that becomes one. -/
theorem ofText_print_refused_infinity :
    (binary .divide (binary .add (constant 1e-5) (constant (-Float.inf))) (constant 0)).IsGenuine ∧
      (∃ x ∈ [(1e-5 : Float), -Float.inf, 0], x.isFinite = false) ∧
      (∃ rest, ofText (binary .divide (binary .add (constant 1e-5) (constant (-Float.inf)))
        (constant 0)).print = .error (.lex ⟨10, rest⟩)) ∧
      ofText "-1e309" = .ok (unary .minus (constant Float.inf)) ∧ HasOverflow "-1e309" ∧
      ∃ failure, ofText (unary .minus (constant Float.inf)).print = .error failure := by
  have hgenuine : (binary .divide (binary .add (constant 1e-5) (constant (-Float.inf)))
      (constant 0)).IsGenuine := ⟨⟨trivial, trivial⟩, trivial⟩
  have hinfinite : ∃ x ∈ [(1e-5 : Float), -Float.inf, 0], x.isFinite = false :=
    ⟨-Float.inf, by simp, by decide⟩
  have htext : ofText "-1e309" = .ok (unary .minus (constant Float.inf)) := by decide +kernel
  have hoverflow : HasOverflow "-1e309" := by
    have htokens : tokenize "-1e309" = .ok [.operator .minus, .number Float.inf] := by decide +kernel
    have hinfinite : ¬ IsFinite Float.inf := by
      rw [← isFinite_iff]
      decide
    exact (hasOverflow_iff htokens).2 ⟨Float.inf, by simp [Token.numbers], hinfinite⟩
  obtain ⟨hrefused, hagain⟩ := ofText_print_refused
  obtain ⟨_, _, _, _, _, word, after, -, -, -, -, -, -, -, hread⟩ := hrefused _ hgenuine hinfinite
  have hposition : (binary .divide (binary .add (constant 1e-5) (constant (-Float.inf)))
      (constant 0)).print.toList.findIdx beginsWord = 10 := by decide +kernel
  rw [hposition] at hread
  exact ⟨hgenuine, hinfinite, ⟨_, hread⟩, htext, hoverflow, (hagain _ _ htext).1.2 hoverflow⟩

end Expr
end Calculator
