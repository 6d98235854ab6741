import Calculator.Expr.Print
import Calculator.Proofs.Grammar

/-! The tokens of a tree.

`tokens` writes a tree with parentheses around those operands alone that make a looser
phrase than their operator accepts, which is where printing puts them
(`needsParensBefore_eq` and its like). The tree can be derived from its tokens
(`derives_tokensIn`), and every other derivation of it takes more
(`Derives.eq_tokensIn_or_length_lt`). -/
namespace Calculator

/-- Tokens of one phrase where another is called for, in parentheses if they hold together too
loosely. -/
def Phrase.enclose (outer inner : Phrase) (tokens : List Token) : List Token :=
  if inner.level < outer.level then .openParen :: tokens ++ [.closeParen] else tokens

namespace Expr

/-- The phrase that a tree makes without parentheses around it. -/
def phrase : Expr → Phrase
  | .unary .. => .signed
  | .binary op .. => op.phrase
  | .constant _ | .foreign _ => .atom

def tokens : Expr → List Token
  | .constant x => [.number x]
  | .unary op e => .operator op.symbol :: Phrase.signed.enclose e.phrase e.tokens
  | .binary op l r =>
    op.left.enclose l.phrase l.tokens ++
      .operator op.symbol :: op.right.enclose r.phrase r.tokens
  | .foreign text => [.foreign text]

/-- The tokens of a tree where a phrase is called for. -/
def tokensIn (p : Phrase) (e : Expr) : List Token :=
  p.enclose e.phrase e.tokens

theorem tokensIn_of_le {p : Phrase} {e : Expr} (h : p.level ≤ e.phrase.level) :
    e.tokensIn p = e.tokens :=
  if_neg (Nat.not_lt.2 h)

theorem tokensIn_of_lt {p : Phrase} {e : Expr} (h : e.phrase.level < p.level) :
    e.tokensIn p = .openParen :: e.tokens ++ [.closeParen] :=
  if_pos h

theorem tokensIn_sum (e : Expr) : e.tokensIn .sum = e.tokens :=
  tokensIn_of_le e.phrase.level_sum_le

theorem tokensIn_unary (op : UnaryOp) (e : Expr) :
    (unary op e).tokensIn .signed = .operator op.symbol :: e.tokensIn .signed :=
  rfl

theorem tokensIn_binary (op : BinaryOp) (l r : Expr) :
    (binary op l r).tokensIn op.phrase =
      l.tokensIn op.left ++ .operator op.symbol :: r.tokensIn op.right :=
  tokensIn_of_le (Nat.le_refl _)

/-! ### Where the parentheses stand -/

theorem needsParensAfterSign_eq (e : Expr) :
    e.needsParensAfterSign = decide (e.phrase.level < Phrase.signed.level) := by
  cases e with
  | binary op l r => cases op <;> rfl
  | _ => rfl

theorem needsParensBefore_eq (op : BinaryOp) (l : Expr) :
    l.needsParensBefore op = decide (l.phrase.level < op.left.level) := by
  have hoperator (a : Operator) :
      (!a.leftFirst (.binary op)) = decide (a.phrase.level < op.left.level) := by
    rw [Operator.leftFirst_eq_left, ← decide_not]
    exact decide_eq_decide.2 Nat.not_le
  cases l with
  | unary a e => exact hoperator (.unary a)
  | binary a l r => exact hoperator (.binary a)
  | constant | foreign => cases op <;> rfl

theorem needsParensAfter_eq (op : BinaryOp) (r : Expr) :
    r.needsParensAfter op = decide (r.phrase.level < op.right.level) := by
  cases r with
  | binary a l r => exact Operator.leftFirst_eq_right (.binary op) a
  | unary | constant | foreign => cases op <;> rfl

end Expr

/-! ### Derivations of a tree -/

theorem Derives.enclose {inner : Phrase} (outer : Phrase) {tokens : List Token} {e : Expr}
    (h : Derives inner tokens e) : Derives outer (outer.enclose inner tokens) e := by
  unfold Phrase.enclose
  split
  · exact (group (h.mono inner.level_sum_le)).mono outer.level_le_atom
  · next hle => exact h.mono (Nat.le_of_not_lt hle)

theorem Expr.derives_tokens {e : Expr} (h : e.IsGenuine) : Derives e.phrase e.tokens e := by
  induction e with
  | constant x => exact .number x
  | unary op e ih => exact .sign op ((ih h).enclose .signed)
  | binary op l r ihl ihr => exact .binary op ((ihl h.1).enclose op.left) ((ihr h.2).enclose op.right)
  | foreign text => contradiction

theorem Expr.tokensIn_eq_or_length_lt {p q : Phrase} (e : Expr) (h : p.level ≤ q.level) :
    e.tokensIn p = e.tokensIn q ∨ (e.tokensIn p).length < (e.tokensIn q).length := by
  by_cases hq : e.phrase.level < q.level
  · by_cases hp : e.phrase.level < p.level
    · exact .inl ((tokensIn_of_lt hp).trans (tokensIn_of_lt hq).symm)
    · right
      rw [tokensIn_of_le (Nat.le_of_not_lt hp), tokensIn_of_lt hq]
      simp only [List.length_append, List.length_cons]
      omega
  · left
    rw [tokensIn_of_le (Nat.le_of_not_lt hq), tokensIn_of_le (by omega)]

/-- **A tree is derived from its own tokens or from more.** -/
theorem Derives.eq_tokensIn_or_length_lt {p : Phrase} {tokens : List Token} {e : Expr}
    (h : Derives p tokens e) : tokens = e.tokensIn p ∨ (e.tokensIn p).length < tokens.length := by
  induction h using inductLevel with
  | @mono p q ts e hpq h ih =>
    -- A looser phrase takes the same tokens, or saves a pair of parentheses.
    rcases e.tokensIn_eq_or_length_lt hpq with hloose | hloose
    · rwa [hloose]
    · rcases ih with rfl | ih
      · exact .inr hloose
      · exact .inr (Nat.lt_trans hloose ih)
  | number x => exact .inl rfl
  | @sign ts e op h ih =>
    rw [Expr.tokensIn_unary]
    rcases ih with rfl | ih
    · exact .inl rfl
    · exact .inr (Nat.succ_lt_succ ih)
  | @binary ls rs l r op hl hr ihl ihr =>
    rw [Expr.tokensIn_binary]
    simp only [List.length_append, List.length_cons]
    rcases ihl with rfl | ihl
    · rcases ihr with rfl | ihr
      · exact .inl rfl
      · right
        omega
    · right
      rcases ihr with rfl | ihr <;> omega
  | @group ts e h ih =>
    -- The parentheses are the tree's own only around what is not an atom.
    rw [Expr.tokensIn_sum] at ih
    by_cases hatom : e.phrase.level < Phrase.atom.level
    · rw [Expr.tokensIn_of_lt hatom]
      rcases ih with rfl | ih
      · exact .inl rfl
      · right
        simp only [List.length_append, List.length_cons]
        omega
    · right
      rw [Expr.tokensIn_of_le (Nat.le_of_not_lt hatom)]
      simp only [List.length_append, List.length_cons]
      rcases ih with rfl | ih <;> omega

example : (Expr.binary .power (.binary .power (.constant 2) (.constant 3))
    (.unary .minus (.constant 1))).tokens =
      [.openParen, .number 2, .operator .power, .number 3, .closeParen, .operator .power,
        .operator .minus, .number 1] := rfl

end Calculator
