import Calculator.Proofs.Expr.Norm
import Calculator.Proofs.Yard.Operand

/-! Groups are atoms.

Take a phrase out of a derivation and what is left is a place for a phrase: the tokens
before it, the tokens after it, and a tree that lacks a branch (`Place`). Every phrase
at least as tight can be put there, so every operand can be put in parentheses, however
many. A number stands in such a place wherever it stands, and which constant of the tree
it is can be told by counting the numbers before it (`exists_place`). So where a number
can stand a group can, and its tree takes the place of the constant (`ofTokens_group`). -/
namespace Calculator

/-! ### Numbers and constants -/

/-- The values of the numbers among the tokens. -/
def Token.numbers (tokens : List Token) : List Float :=
  tokens.filterMap fun
    | .number x => some x
    | _ => none

/-- The constants of a tree are the numbers it was read from, in their order. -/
theorem Derives.constants_eq {p : Phrase} {tokens : List Token} {e : Expr} (h : Derives p tokens e) :
    e.constants = Token.numbers tokens := by
  induction h using inductLevel with
  | mono _ _ ih => exact ih
  | number x => rfl
  | sign op _ ih => exact ih
  | binary op _ _ ihl ihr => simp [Expr.constants, Token.numbers, ihl, ihr]
  | group _ ih => simp [Token.numbers, ih]

namespace Expr

/-- The tree with a constant replaced, the constants counted from the left, from zero. -/
def replaceConstant : Expr → Nat → Expr → Expr
  | .constant x, n, replacement => if n = 0 then replacement else .constant x
  | .unary op e, n, replacement => .unary op (e.replaceConstant n replacement)
  | .binary op l r, n, replacement =>
    if n < l.constants.length then .binary op (l.replaceConstant n replacement) r
    else .binary op l (r.replaceConstant (n - l.constants.length) replacement)
  | .foreign text, _, _ => .foreign text

end Expr

/-! ### Places in a derivation -/

/-- `Place p before after fill q`: with a phrase `q` between the tokens they are a phrase `p`,
whose tree is that of the one between, filled in. -/
inductive Place : Phrase → List Token → List Token → (Expr → Expr) → Phrase → Prop where
  | here (p : Phrase) : Place p [] [] id p
  | mono {p q r before after fill} : p.level ≤ q.level → Place q before after fill r →
      Place p before after fill r
  | sign {before after fill q} (op : UnaryOp) : Place .signed before after fill q →
      Place .signed (.operator op.symbol :: before) after (fun e => .unary op (fill e)) q
  | left {before after fill q rs r} (op : BinaryOp) : Place op.left before after fill q →
      Derives op.right rs r →
      Place op.phrase before (after ++ .operator op.symbol :: rs) (fun e => .binary op (fill e) r) q
  | right {before after fill q ls l} (op : BinaryOp) : Derives op.left ls l →
      Place op.right before after fill q →
      Place op.phrase (ls ++ .operator op.symbol :: before) after (fun e => .binary op l (fill e)) q
  | group {before after fill q} : Place .sum before after fill q →
      Place .atom (.openParen :: before) (after ++ [Token.closeParen]) fill q

theorem Place.derives {p q : Phrase} {before after tokens : List Token} {fill : Expr → Expr} {e : Expr}
    (h : Place p before after fill q) (he : Derives q tokens e) :
    Derives p (before ++ (tokens ++ after)) (fill e) := by
  induction h with
  | here p => simpa using he
  | mono hpq _ ih => exact (ih he).mono hpq
  | sign op _ ih => exact (ih he).sign op
  | left op _ hr ih => simpa using Derives.binary op (ih he) hr
  | right op hl _ ih => simpa using Derives.binary op hl (ih he)
  | group _ ih => simpa using (ih he).group

/-- Where one of two items that differ stands, seen from the other. -/
theorem append_cons_cases {α : Type} {ls rs before after : List α} {a b : α}
    (h : ls ++ a :: rs = before ++ b :: after) (hne : a ≠ b) :
    (∃ more, ls = before ++ b :: more ∧ after = more ++ a :: rs) ∨
      ∃ more, before = ls ++ a :: more ∧ rs = more ++ b :: after := by
  rcases List.append_eq_append_iff.1 h with ⟨more, hbefore, hmore⟩ | ⟨more, hls, hmore⟩
  · right
    cases more with
    | nil => exact absurd (List.cons.inj hmore).1 hne
    | cons c more =>
      obtain ⟨rfl, hrs⟩ := List.cons.inj hmore
      exact ⟨more, hbefore, hrs⟩
  · left
    cases more with
    | nil => exact absurd (List.cons.inj hmore).1.symm hne
    | cons c more =>
      obtain ⟨rfl, hafter⟩ := List.cons.inj hmore
      exact ⟨more, hls, hafter⟩

/-- **A number stands in a place of its own**, and what is filled in there replaces the constant
of which as many come before as there are numbers before. -/
theorem Derives.exists_place {p : Phrase} {tokens : List Token} {e : Expr} (h : Derives p tokens e)
    {before after : List Token} {x : Float} (htokens : tokens = before ++ .number x :: after) :
    ∃ fill q, Place p before after fill q ∧ fill (.constant x) = e ∧
      ∀ a, fill a = e.replaceConstant (Token.numbers before).length a := by
  induction h using inductLevel generalizing before after with
  | mono hpq _ ih =>
    obtain ⟨fill, q, hplace, hrest⟩ := ih htokens
    exact ⟨fill, q, hplace.mono hpq, hrest⟩
  | number y =>
    cases before with
    | nil =>
      cases htokens
      exact ⟨id, .atom, .here .atom, rfl, fun a => rfl⟩
    | cons token before => simp at htokens
  | sign op _ ih =>
    cases before with
    | nil => cases htokens
    | cons token before =>
      obtain ⟨rfl, hrest⟩ := List.cons.inj htokens
      obtain ⟨fill, q, hplace, hfill, hreplace⟩ := ih hrest
      exact ⟨_, q, hplace.sign op, congrArg _ hfill, fun a => congrArg (Expr.unary op) (hreplace a)⟩
  | @binary ls rs l r op hl hr ihl ihr =>
    rcases append_cons_cases htokens (by simp) with ⟨more, rfl, rfl⟩ | ⟨more, rfl, rfl⟩
    · obtain ⟨fill, q, hplace, hfill, hreplace⟩ := ihl rfl
      refine ⟨_, q, hplace.left op hr, by rw [hfill], fun a => ?_⟩
      have hlt : (Token.numbers before).length < l.constants.length := by
        rw [hl.constants_eq]
        simp [Token.numbers]
      rw [Expr.replaceConstant, if_pos hlt, hreplace]
    · obtain ⟨fill, q, hplace, hfill, hreplace⟩ := ihr rfl
      refine ⟨_, q, .right op hl hplace, by rw [hfill], fun a => ?_⟩
      have hlength : (Token.numbers (ls ++ .operator op.symbol :: more)).length =
          l.constants.length + (Token.numbers more).length := by
        rw [hl.constants_eq]
        simp [Token.numbers]
      rw [Expr.replaceConstant, hlength, if_neg (by omega), Nat.add_sub_cancel_left, hreplace]
  | group _ ih =>
    rcases append_cons_cases htokens (by simp) with ⟨more, hbefore, rfl⟩ | ⟨more, rfl, hnil⟩
    · cases before with
      | nil => cases hbefore
      | cons token before =>
        obtain ⟨rfl, hts⟩ := List.cons.inj hbefore
        obtain ⟨fill, q, hplace, hrest⟩ := ih hts
        exact ⟨fill, q, hplace.group, hrest⟩
    · simp at hnil

/-! ### Groups -/

/-- The tokens in so many pairs of parentheses. -/
def Token.wrap (n : Nat) (tokens : List Token) : List Token :=
  List.replicate n Token.openParen ++ tokens ++ List.replicate n Token.closeParen

theorem Token.wrap_succ (n : Nat) (tokens : List Token) :
    wrap (n + 1) tokens = Token.openParen :: wrap n tokens ++ [Token.closeParen] := by
  rw [wrap, wrap, List.replicate_succ, List.replicate_succ']
  simp

theorem Derives.wrap {p : Phrase} {tokens : List Token} {e : Expr} (h : Derives p tokens e) (n : Nat) :
    Derives p (Token.wrap n tokens) e := by
  induction n with
  | zero => simpa [Token.wrap] using h
  | succ n ih =>
    rw [Token.wrap_succ]
    exact (group (ih.mono p.level_sum_le)).mono p.level_le_atom

namespace Expr

theorem isCongruence_true : IsCongruence fun _ _ => True :=
  ⟨fun _ => trivial, fun _ _ _ _ => trivial, fun _ _ _ _ _ _ _ => trivial⟩

/-- **A group behaves as an atom.** Where a number can stand the tokens of a tree can, in
parentheses, and nowhere else; in the tree of the whole, theirs takes the place of the number.
And every operand can be put in parentheses, however many, the whole list among them. -/
theorem ofTokens_group (l e r : List Token) (c : Float) (a : Expr) (he : ofTokens e = .ok a) :
    ((∃ t, ofTokens (l ++ [Token.openParen] ++ e ++ [Token.closeParen] ++ r) = .ok t) ↔
        ∃ t, ofTokens (l ++ [Token.number c] ++ r) = .ok t) ∧
      (∀ t, ofTokens (l ++ [Token.number c] ++ r) = .ok t →
        t.constants[(Token.numbers l).length]? = some c ∧
          ofTokens (l ++ [Token.openParen] ++ e ++ [Token.closeParen] ++ r) =
            .ok (t.replaceConstant (Token.numbers l).length a)) ∧
      (∀ n, ofTokens (Token.wrap n e) = .ok a) ∧
      ∀ before after fill q operand x, Place .sum before after fill q → Derives q operand x →
        ofTokens (before ++ operand ++ after) = .ok (fill x) ∧
          ∀ n, ofTokens (before ++ Token.wrap n operand ++ after) = .ok (fill x) := by
  have hderives := derives_of_ofTokens he
  have hgroup : Derives .atom (Token.openParen :: e ++ [Token.closeParen]) a := .group hderives
  have hlist : l ++ [Token.openParen] ++ e ++ [Token.closeParen] ++ r =
      l ++ ((Token.openParen :: e ++ [Token.closeParen]) ++ r) := by simp
  have hnumber : l ++ [Token.number c] ++ r = l ++ ([Token.number c] ++ r) := List.append_assoc ..
  have hreplace (t : Expr) (ht : ofTokens (l ++ [Token.number c] ++ r) = .ok t) :
      ofTokens (l ++ [Token.openParen] ++ e ++ [Token.closeParen] ++ r) =
        .ok (t.replaceConstant (Token.numbers l).length a) := by
    rw [hnumber] at ht
    obtain ⟨fill, q, hplace, -, hfill⟩ := (derives_of_ofTokens ht).exists_place rfl
    rw [hlist, ← hfill]
    exact ofTokens_of_derives (hplace.derives (hgroup.mono q.level_le_atom))
  refine ⟨⟨?_, fun ⟨t, ht⟩ => ⟨_, hreplace t ht⟩⟩, fun t ht => ⟨?_, hreplace t ht⟩, fun n => ?_, ?_⟩
  · -- Reading is blind to what an operand is.
    rw [hlist, hnumber]
    intro ⟨t, ht⟩
    obtain ⟨frames, hbefore⟩ := run_of_ofTokens_openParen ht
    obtain ⟨t', ht', -⟩ := (alike_ofTokens_operand isCongruence_true (fun _ => trivial) hbefore
      (.ofAtom hgroup) (.ofAtom (.number c)) trivial r).exists_ok ht
    exact ⟨t', ht'⟩
  · rw [(derives_of_ofTokens ht).constants_eq]
    simp [Token.numbers]
  · exact ofTokens_of_derives (hderives.wrap n)
  · intro before after fill q operand x hplace hx
    have hread {tokens : List Token} (htokens : Derives q tokens x) :
        ofTokens (before ++ tokens ++ after) = .ok (fill x) := by
      rw [List.append_assoc]
      exact ofTokens_of_derives (hplace.derives htokens)
    exact ⟨hread hx, fun n => hread (hx.wrap n)⟩

/-- A difference in place of the second number, the base of a power. -/
theorem ofTokens_group_base :
    ofTokens [.number 1, .operator .minus, .number 4] =
        .ok (.binary .subtract (.constant 1) (.constant 4)) ∧
      ofTokens ([Token.number 2, .operator .times] ++ [Token.number 7] ++ [Token.operator .power, .number 3]) =
        .ok (.binary .multiply (.constant 2) (.binary .power (.constant 7) (.constant 3))) ∧
      ofTokens ([Token.number 2, .operator .times] ++ [Token.openParen] ++
          [Token.number 1, .operator .minus, .number 4] ++ [Token.closeParen] ++ [Token.operator .power, .number 3]) =
        .ok (.binary .multiply (.constant 2)
          (.binary .power (.binary .subtract (.constant 1) (.constant 4)) (.constant 3))) := by
  have he : ofTokens [.number 1, .operator .minus, .number 4] =
      .ok (.binary .subtract (.constant 1) (.constant 4)) := rfl
  have hnumber : ofTokens ([Token.number 2, .operator .times] ++ [Token.number 7] ++
      [Token.operator .power, .number 3]) =
        .ok (.binary .multiply (.constant 2) (.binary .power (.constant 7) (.constant 3))) := rfl
  obtain ⟨-, hreplace, -⟩ := ofTokens_group [.number 2, .operator .times] _
    [.operator .power, .number 3] 7 _ he
  exact ⟨he, hnumber, (hreplace _ hnumber).2⟩

end Expr
end Calculator
