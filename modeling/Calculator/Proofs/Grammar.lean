import Calculator.Expr
import Calculator.Token

/-! The grammar of expressions.

Phrases are stratified by how tightly they hold together: sums of products of powers
of signed atoms. Sums and products lean to the left, powers to the right, and a sign
belongs to the atom after it. `Derives` is the grammar, one rule for each production;
parentheses leave nothing in the tree derived.

What follows relates it to precedence: of two operators with an operand between them,
the left one takes it first exactly if it makes a phrase that the right one accepts as
its left operand (`leftFirst_eq_left`), and otherwise the right one makes a phrase that
the left one accepts (`leftFirst_eq_right`). -/
namespace Calculator

inductive Phrase where
  | sum | product | power | signed | atom
deriving DecidableEq, Repr

/-- `Derives p tokens e`: the tokens are a phrase `p` with the tree `e`. -/
inductive Derives : Phrase → List Token → Expr → Prop where
  | sum {op ls rs l r} : op = .add ∨ op = .subtract → Derives .sum ls l → Derives .product rs r →
      Derives .sum (ls ++ .operator op.symbol :: rs) (.binary op l r)
  | ofProduct {ts e} : Derives .product ts e → Derives .sum ts e
  | product {op ls rs l r} : op = .multiply ∨ op = .divide → Derives .product ls l →
      Derives .power rs r → Derives .product (ls ++ .operator op.symbol :: rs) (.binary op l r)
  | ofPower {ts e} : Derives .power ts e → Derives .product ts e
  | power {ls rs l r} : Derives .signed ls l → Derives .power rs r →
      Derives .power (ls ++ .operator .power :: rs) (.binary .power l r)
  | ofSigned {ts e} : Derives .signed ts e → Derives .power ts e
  | sign {ts e} (op : UnaryOp) : Derives .signed ts e →
      Derives .signed (.operator op.symbol :: ts) (.unary op e)
  | ofAtom {ts e} : Derives .atom ts e → Derives .signed ts e
  | number (x : Float) : Derives .atom [.number x] (.constant x)
  | group {ts e} : Derives .sum ts e → Derives .atom (.openParen :: ts ++ [.closeParen]) e

/-! ### Levels -/

/-- The tighter phrase has the higher level. -/
def Phrase.level : Phrase → Nat
  | .sum => 1
  | .product => 2
  | .power => 3
  | .signed => 4
  | .atom => 5

theorem Phrase.level_sum_le (p : Phrase) : Phrase.sum.level ≤ p.level := by
  cases p <;> decide

theorem Phrase.level_le_atom (p : Phrase) : p.level ≤ Phrase.atom.level := by
  cases p <;> decide

namespace BinaryOp

/-- The phrase that the operator makes. -/
def phrase : BinaryOp → Phrase
  | .add | .subtract => .sum
  | .multiply | .divide => .product
  | .power => .power

/-- The loosest phrase that can be the left operand. -/
def left : BinaryOp → Phrase
  | .add | .subtract => .sum
  | .multiply | .divide => .product
  | .power => .signed

/-- The loosest phrase that can be the right operand. -/
def right : BinaryOp → Phrase
  | .add | .subtract => .product
  | .multiply | .divide | .power => .power

theorem level_phrase_le_left (op : BinaryOp) : op.phrase.level ≤ op.left.level := by
  cases op <;> decide

theorem level_phrase_le_right (op : BinaryOp) : op.phrase.level ≤ op.right.level := by
  cases op <;> decide

theorem level_left_le_signed (op : BinaryOp) : op.left.level ≤ Phrase.signed.level := by
  cases op <;> decide

theorem level_right_le_signed (op : BinaryOp) : op.right.level ≤ Phrase.signed.level := by
  cases op <;> decide

end BinaryOp

namespace Operator

/-- The phrase that the operator makes. -/
def phrase : Operator → Phrase
  | .unary _ => .signed
  | .binary op => op.phrase

/-- The loosest phrase that can be the operand after the operator. -/
def operand : Operator → Phrase
  | .unary _ => .signed
  | .binary op => op.right

/-- The operator to the left takes the operand if what it makes can be the left operand of the
other. -/
theorem leftFirst_eq_left (a : Operator) (b : BinaryOp) :
    a.leftFirst (.binary b) = decide (b.left.level ≤ a.phrase.level) := by
  rcases a with a | a <;> cases a <;> cases b <;> rfl

/-- It leaves the operand to the other if what that makes can be its own operand. -/
theorem leftFirst_eq_right (a : Operator) (b : BinaryOp) :
    a.leftFirst (.binary b) = decide (b.phrase.level < a.operand.level) := by
  rcases a with a | a <;> cases a <;> cases b <;> rfl

end Operator

/-! ### Derivations -/

namespace Derives

/-- A phrase is also a phrase of every looser kind. -/
theorem mono {p q : Phrase} {tokens : List Token} {e : Expr} (h : Derives q tokens e)
    (hpq : p.level ≤ q.level) : Derives p tokens e := by
  have sum_of_product := @ofProduct tokens e
  have product_of_power := @ofPower tokens e
  have power_of_signed := @ofSigned tokens e
  have signed_of_atom := @ofAtom tokens e
  cases p <;> cases q <;> first | exact absurd hpq (by decide) | simp_all

theorem binary (op : BinaryOp) {ls rs : List Token} {l r : Expr} (hl : Derives op.left ls l)
    (hr : Derives op.right rs r) :
    Derives op.phrase (ls ++ .operator op.symbol :: rs) (.binary op l r) := by
  cases op with
  | add => exact .sum (.inl rfl) hl hr
  | subtract => exact .sum (.inr rfl) hl hr
  | multiply => exact .product (.inl rfl) hl hr
  | divide => exact .product (.inr rfl) hl hr
  | power => exact .power hl hr

/-- Induction over derivations that treats operators alike, and looser kinds of phrase alike. -/
@[elab_as_elim]
theorem inductLevel {motive : ∀ p tokens e, Derives p tokens e → Prop}
    (mono : ∀ {p q ts e} (hpq : p.level ≤ q.level) (h : Derives q ts e), motive q ts e h →
      motive p ts e (h.mono hpq))
    (number : ∀ x, motive .atom [.number x] (.constant x) (.number x))
    (sign : ∀ {ts e} (op : UnaryOp) (h : Derives .signed ts e), motive .signed ts e h →
      motive .signed (.operator op.symbol :: ts) (.unary op e) (.sign op h))
    (binary : ∀ {ls rs l r} (op : BinaryOp) (hl : Derives op.left ls l) (hr : Derives op.right rs r),
      motive op.left ls l hl → motive op.right rs r hr →
      motive op.phrase (ls ++ .operator op.symbol :: rs) (.binary op l r) (.binary op hl hr))
    (group : ∀ {ts e} (h : Derives .sum ts e), motive .sum ts e h →
      motive .atom (.openParen :: ts ++ [.closeParen]) e (.group h))
    {p : Phrase} {tokens : List Token} {e : Expr} (h : Derives p tokens e) : motive p tokens e h := by
  induction h with
  | @sum op ls rs l r hop hl hr ihl ihr =>
    rcases hop with rfl | rfl
    · exact binary .add hl hr ihl ihr
    · exact binary .subtract hl hr ihl ihr
  | @product op ls rs l r hop hl hr ihl ihr =>
    rcases hop with rfl | rfl
    · exact binary .multiply hl hr ihl ihr
    · exact binary .divide hl hr ihl ihr
  | power hl hr ihl ihr => exact binary .power hl hr ihl ihr
  | sign op h ih => exact sign op h ih
  | ofProduct h ih | ofPower h ih | ofSigned h ih | ofAtom h ih => exact mono (by decide) h ih
  | number x => exact number x
  | group h ih => exact group h ih

/-- Only tokens are derived. -/
theorem isGenuine {p : Phrase} {tokens : List Token} {e : Expr} (h : Derives p tokens e) :
    ∀ token ∈ tokens, token.IsGenuine := by
  induction h using inductLevel with
  | mono _ _ ih => exact ih
  | number x => simp [Token.IsGenuine]
  | sign op _ ih => simpa [Token.IsGenuine] using ih
  | binary op _ _ ihl ihr =>
    simp only [List.forall_mem_append, List.forall_mem_cons]
    exact ⟨ihl, trivial, ihr⟩
  | group _ ih =>
    simp only [List.forall_mem_append, List.forall_mem_cons]
    exact ⟨⟨trivial, ih⟩, trivial, by simp⟩

end Derives
end Calculator
