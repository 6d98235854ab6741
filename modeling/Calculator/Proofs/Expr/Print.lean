import Calculator.Proofs.Expr.Norm
import Calculator.Proofs.Expr.Tokens
import Calculator.Proofs.Numeral

/-! Printed trees as tokens.

A text `Scans` to tokens before a rest if reading takes these off first and then goes
on with the rest. Numerals need a rest that they do not run on into, and what is printed
after one is a parenthesis, a blank, a power or nothing. So a printed tree scans to the
tokens of its normal form wherever a numeral may end (`scans_print`). -/
namespace Calculator
open Binary64 Literal Text

namespace Token

/-- The text is cut into the tokens, and then the rest is what it is by itself. -/
def Scans (text : List Char) (tokens : List Token) (rest : List Char) : Prop :=
  scan (text ++ rest) = (tokens ++ (scan rest).1, (scan rest).2)

namespace Scans

theorem append {a b rest : List Char} {as bs : List Token} (ha : Scans a as (b ++ rest))
    (hb : Scans b bs rest) : Scans (a ++ b) (as ++ bs) rest := by
  unfold Scans at ha hb ⊢
  rw [List.append_assoc, ha, hb, List.append_assoc]

theorem scan_eq_iff {text rest : List Char} {tokens whole : List Token} (h : Scans text tokens rest) :
    scan (text ++ rest) = (whole, []) ↔ ∃ after, scan rest = (after, []) ∧ whole = tokens ++ after := by
  rw [h]
  generalize scan rest = scanned
  obtain ⟨after, unread⟩ := scanned
  constructor
  · intro heq
    cases heq
    exact ⟨after, rfl, rfl⟩
  · rintro ⟨_, heq, rfl⟩
    cases heq
    rfl

theorem blank {c : Char} (h : isBlank c = true) (rest : List Char) : Scans [c] [] rest :=
  scan_eq_of_skipBlanks (List.dropWhile_cons_of_pos h)

/-- One token, if it is what the text begins with before this rest. -/
theorem token {text rest : List Char} {token : Token} (hblank : ∃ c ∈ text.head?, isBlank c = false)
    (hread : read? (text ++ rest) = some (token, rest)) : Scans text [token] rest := by
  have hskip : skipBlanks (text ++ rest) = text ++ rest := by
    obtain ⟨c, hc, hblank⟩ := hblank
    cases text with
    | nil => contradiction
    | cons d cs =>
      cases hc
      exact skipBlanks_cons hblank (cs ++ rest)
  exact scan_of_some (hskip.symm ▸ hread)

theorem symbol (s : Symbol) (rest : List Char) : Scans [s.toChar] [.operator s] rest := by
  cases s <;> exact token ⟨_, rfl, rfl⟩ rfl

theorem openParen (rest : List Char) : Scans ['('] [.openParen] rest :=
  token ⟨_, rfl, rfl⟩ rfl

theorem closeParen (rest : List Char) : Scans [')'] [.closeParen] rest :=
  token ⟨_, rfl, rfl⟩ rfl

end Scans

theorem scans_canonical {x : Float} {rank : Nat} (h : ofFloat x = .finite false rank)
    {rest : List Char} (hrest : Ends rest) :
    Scans (Numeral.canonical x).toList [.number x] rest := by
  obtain ⟨value, hspells, -⟩ := Numeral.spells_canonical h
  obtain ⟨c, hc, hdigit⟩ := hspells.begins
  exact .token ⟨c, hc, isBlank_of_isDigit hdigit⟩ (Numeral.read?_canonical h hrest)

end Token

namespace Expr
open Token

theorem ends_spaced (op : BinaryOp) (rest : List Char) : Ends ((spaced op).toList ++ rest) := by
  cases op <;> intro c hc <;> cases hc <;> decide

theorem scans_spaced (op : BinaryOp) (rest : List Char) :
    Scans (spaced op).toList [.operator op.symbol] rest := by
  have hspaces (s : Symbol) :
      Scans (" " ++ String.singleton s.toChar ++ " ").toList [.operator s] rest := by
    have htext : (" " ++ String.singleton s.toChar ++ " ").toList =
        [' '] ++ ([s.toChar] ++ [' ']) := by simp
    rw [htext]
    exact (Scans.blank rfl _).append ((Scans.symbol s _).append (Scans.blank rfl rest))
  cases op with
  | power => exact Scans.symbol .power rest
  | _ => exact hspaces _

theorem scans_numeral {x : Float} (hx : IsFinite x) {rest : List Char} (hrest : Ends rest) :
    Scans (Numeral.canonical x).toList (numeral x).tokens rest := by
  rcases isFinite_cases hx with ⟨rank, hx, hne⟩ | rfl | ⟨rank, hx⟩
  · rw [numeral_of_negative hx hne, Numeral.canonical_of_neg hx hne, String.toList_append]
    exact (Scans.symbol .minus _).append (scans_canonical (ofFloat_neg hx) hrest)
  · rw [numeral_neg_zero, Numeral.canonical_neg_zero]
    exact scans_canonical ofFloat_zero hrest
  · rw [numeral_of_unsigned hx]
    exact scans_canonical hx hrest

/-- A sign takes no parentheses where a constant takes none. -/
theorem level_phrase_norm_lt_iff {p : Phrase} (hp : p.level ≤ Phrase.signed.level) (e : Expr) :
    e.norm.phrase.level < p.level ↔ e.phrase.level < p.level := by
  cases e with
  | constant x =>
    have hatom : p.level ≤ Phrase.atom.level := Nat.le_trans hp (by decide)
    have hnorm : p.level ≤ (numeral x).phrase.level := by
      unfold numeral
      split
      · exact hp
      · split <;> exact hatom
    exact iff_of_false (Nat.not_lt.2 hnorm) (Nat.not_lt.2 hatom)
  | unary | binary | foreign => exact Iff.rfl

theorem scans_operand {p : Phrase} (hp : p.level ≤ Phrase.signed.level) {e : Expr} {condition : Bool}
    (hcondition : condition = decide (e.phrase.level < p.level))
    (h : ∀ {rest}, Ends rest → Scans e.print.toList e.norm.tokens rest) {rest : List Char}
    (hrest : Ends rest) :
    Scans (parenthesizeIf condition e.print).toList (e.norm.tokensIn p) rest := by
  by_cases hlt : e.phrase.level < p.level
  · rw [hcondition, decide_eq_true hlt, tokensIn_of_lt ((level_phrase_norm_lt_iff hp e).2 hlt)]
    have htext : (parenthesizeIf true e.print).toList = ['('] ++ (e.print.toList ++ [')']) := by
      simp [parenthesizeIf]
    rw [htext]
    exact (Scans.openParen _).append ((h (ends_closeParen rest)).append (Scans.closeParen rest))
  · have hle := mt (level_phrase_norm_lt_iff hp e).1 hlt
    rw [hcondition, decide_eq_false hlt, tokensIn_of_le (Nat.le_of_not_lt hle)]
    exact h hrest

/-- **A printed tree is cut into the tokens of its normal form.** -/
theorem scans_print {e : Expr} (hgenuine : e.IsGenuine) (hfinite : ∀ x ∈ e.constants, IsFinite x)
    {rest : List Char} (hrest : Ends rest) : Scans e.print.toList e.norm.tokens rest := by
  induction e generalizing rest with
  | constant x => exact scans_numeral (hfinite x (List.mem_singleton_self x)) hrest
  | unary op e ih =>
    have htext : (unary op e).print.toList =
        [op.symbol.toChar] ++ (parenthesizeIf e.needsParensAfterSign e.print).toList := by
      simp [print]
    rw [htext]
    exact (Scans.symbol op.symbol _).append
      (scans_operand (Nat.le_refl _) (needsParensAfterSign_eq e) (ih hgenuine hfinite) hrest)
  | binary op l r ihl ihr =>
    have htext : (binary op l r).print.toList =
        (parenthesizeIf (l.needsParensBefore op) l.print).toList ++
          ((spaced op).toList ++ (parenthesizeIf (r.needsParensAfter op) r.print).toList) := by
      simp [print]
    have hfiniteL : ∀ x ∈ l.constants, IsFinite x := fun x hx => hfinite x (List.mem_append_left _ hx)
    have hfiniteR : ∀ x ∈ r.constants, IsFinite x := fun x hx => hfinite x (List.mem_append_right _ hx)
    have hends := ends_spaced op ((parenthesizeIf (r.needsParensAfter op) r.print).toList ++ rest)
    have hl := scans_operand op.level_left_le_signed (needsParensBefore_eq op l)
      (ihl hgenuine.1 hfiniteL) hends
    have hr := scans_operand op.level_right_le_signed (needsParensAfter_eq op r)
      (ihr hgenuine.2 hfiniteR) hrest
    rw [htext]
    exact Scans.append (by rwa [List.append_assoc]) ((scans_spaced op _).append hr)
  | foreign text => contradiction

end Expr
end Calculator
