import Calculator.Proofs.Yard.Grammar
import Mathlib.Data.List.Forall2

/-! Operands stand for one another.

A yard never looks into its operands. Two yards with the same entries, whose operands are
related one by one, refuse the same token for the same reason, and otherwise stay so, for
every relation that trees made alike of related trees are in (`Similar.run_finish`). And
where an operand is awaited, a signed phrase comes to the same as its tree put there, since
no frame that it leaves open outlasts the next token (`run_signed`). So of two signed
phrases either can stand for the other (`alike_ofTokens_operand`). -/
namespace Calculator
open Calculator.Frame

/-- Trees made alike of related trees are related. -/
structure Expr.IsCongruence (R : Expr → Expr → Prop) : Prop where
  constant : ∀ x, R (.constant x) (.constant x)
  unary : ∀ op {e e'}, R e e' → R (.unary op e) (.unary op e')
  binary : ∀ op {l l' r r'}, R l l' → R r r' → R (.binary op l r) (.binary op l' r')

/-- Both went wrong in the same way, or what they gave is related. -/
inductive Alike {α β ε : Type} (R : α → β → Prop) : Except ε α → Except ε β → Prop where
  | ok {a b} : R a b → Alike R (.ok a) (.ok b)
  | error (e) : Alike R (.error e) (.error e)

section Alike
variable {α β α' β' ε : Type} {R : α → β → Prop} {S : α' → β' → Prop} {x : Except ε α} {y : Except ε β}

theorem Alike.bind {f : α → Except ε α'} {g : β → Except ε β'} (h : Alike R x y)
    (hfg : ∀ a b, R a b → Alike S (f a) (g b)) : Alike S (x >>= f) (y >>= g) := by
  cases h with
  | ok hab => exact hfg _ _ hab
  | error e => exact .error e

theorem Alike.exists_ok (h : Alike R x y) {a : α} (hx : x = .ok a) : ∃ b, y = .ok b ∧ R a b := by
  cases h with
  | ok hab =>
    cases hx
    exact ⟨_, rfl, hab⟩
  | error e => contradiction

end Alike

namespace Yard

/-- The entries are the same and the operands related one by one. -/
structure Similar (R : Expr → Expr → Prop) (y y' : Yard) : Prop where
  operands : List.Forall₂ R y.operands y'.operands
  entries : y.entries = y'.entries
  expecting : y.expecting = y'.expecting

section Similar
variable {R : Expr → Expr → Prop} {y y' : Yard}

/-! ### Stacks of operands -/

theorem alike_apply (hR : Expr.IsCongruence R) (op : Operator) {operands operands' : List Expr}
    (h : List.Forall₂ R operands operands') :
    Alike (List.Forall₂ R) (op.apply operands) (op.apply operands') := by
  cases op with
  | unary op =>
    cases h with
    | nil => exact .error _
    | cons hx hrest => exact .ok (.cons (hR.unary op hx) hrest)
  | binary op =>
    cases h with
    | nil => exact .error _
    | cons hy hrest =>
      cases hrest with
      | nil => exact .error _
      | cons hx hrest => exact .ok (.cons (hR.binary op hx hy) hrest)

theorem alike_reduceWhile (hR : Expr.IsCongruence R) (p : Operator → Bool) (entries : List Entry)
    {operands operands' : List Expr} (h : List.Forall₂ R operands operands') :
    Alike (fun a b => List.Forall₂ R a.1 b.1 ∧ a.2 = b.2) (reduceWhile p operands entries)
      (reduceWhile p operands' entries) := by
  induction entries generalizing operands operands' with
  | nil => exact .ok ⟨h, rfl⟩
  | cons entry entries ih =>
    cases entry with
    | paren => exact .ok ⟨h, rfl⟩
    | operator op =>
      rw [reduceWhile, reduceWhile]
      split
      · exact (alike_apply hR op h).bind fun _ _ hrest => ih hrest
      · exact .ok ⟨h, rfl⟩

theorem alike_drain (hR : Expr.IsCongruence R) (entries : List Entry)
    {operands operands' : List Expr} (h : List.Forall₂ R operands operands') :
    Alike (List.Forall₂ R) (drain operands entries) (drain operands' entries) := by
  induction entries generalizing operands operands' with
  | nil => exact .ok h
  | cons entry entries ih =>
    cases entry with
    | paren => exact .error _
    | operator op => exact (alike_apply hR op h).bind fun _ _ hrest => ih hrest

/-! ### Yards -/

theorem Similar.check_eq (h : Similar R y y') (token : Token) : y.check token = y'.check token := by
  cases token <;> simp only [check, h.expecting]

theorem Similar.advance (hR : Expr.IsCongruence R) (h : Similar R y y') (token : Token) :
    Alike (Similar R) (y.advance token) (y'.advance token) := by
  obtain ⟨operands, entries, expecting⟩ := y
  obtain ⟨operands', entries', expecting'⟩ := y'
  obtain ⟨hoperands, rfl, rfl⟩ := h
  cases token with
  | number x => exact .ok ⟨.cons (hR.constant x) hoperands, rfl, rfl⟩
  | operator symbol =>
    simp only [Yard.advance]
    split
    · exact .ok ⟨hoperands, rfl, rfl⟩
    · refine (alike_reduceWhile hR _ entries hoperands).bind ?_
      rintro ⟨rest, left⟩ ⟨rest', left'⟩ ⟨hrest, rfl⟩
      exact .ok ⟨hrest, rfl, rfl⟩
  | openParen => exact .ok ⟨hoperands, rfl, rfl⟩
  | closeParen =>
    refine (alike_reduceWhile hR _ entries hoperands).bind ?_
    rintro ⟨rest, left⟩ ⟨rest', left'⟩ ⟨hrest, rfl⟩
    dsimp only
    split
    · exact .ok ⟨hrest, rfl, rfl⟩
    · exact .error _
  | foreign text => exact .error _

theorem Similar.step (hR : Expr.IsCongruence R) (h : Similar R y y') (token : Token) :
    Alike (Similar R) (y.step token) (y'.step token) := by
  rw [Yard.step_eq, Yard.step_eq, h.check_eq token]
  cases y'.check token with
  | error e => exact .error e
  | ok _ => exact h.advance hR token

theorem Similar.run (hR : Expr.IsCongruence R) (h : Similar R y y') (tokens : List Token) :
    Alike (Similar R) (y.run tokens) (y'.run tokens) := by
  induction tokens generalizing y y' with
  | nil => exact .ok h
  | cons token tokens ih => exact (h.step hR token).bind fun _ _ hnext => ih hnext

theorem Similar.finish (hR : Expr.IsCongruence R) (h : Similar R y y') :
    Alike R y.finish y'.finish := by
  rw [Yard.finish, Yard.finish, h.entries]
  refine (alike_drain hR y'.entries h.operands).bind fun operands operands' hleft => ?_
  cases hleft with
  | nil => exact .error _
  | cons he hrest =>
    cases hrest with
    | nil => exact .ok he
    | cons _ hrest =>
      simp only [List.length_cons, hrest.length_eq]
      exact .error _

theorem Similar.run_finish (hR : Expr.IsCongruence R) (h : Similar R y y') (tokens : List Token) :
    Alike R (y.run tokens >>= Yard.finish) (y'.run tokens >>= Yard.finish) :=
  (h.run hR tokens).bind fun _ _ hend => hend.finish hR

theorem Similar.ofFrames (hR : ∀ e, R e e) (frames : List Frame) {e e' : Expr} (h : R e e') :
    Similar R (ofFrames frames (some e)) (ofFrames frames (some e')) :=
  ⟨.cons h (List.forall₂_same.2 fun x _ => hR x), rfl, rfl⟩

end Similar

/-! ### Signed phrases -/

section Signed
variable {inner : List Frame}
  (hinner : ∀ frame ∈ inner, ∃ op, frame.operator? = some op ∧ Phrase.signed.level ≤ op.phrase.level)
  (outer : List Frame) (x : Expr)
include hinner

/-- Frames that signs opened take the next token like the tree that they make. -/
theorem step_signs (token : Token) :
    (ofFrames (inner ++ outer) (some x)).step token =
      (ofFrames outer (some (fillAll inner x))).step token := by
  cases token with
  | number y => rw [step_number_of_operand, step_number_of_operand]
  | operator symbol =>
    -- A sign holds its operand together at least as tightly as any operator takes it.
    have hacts (a : Operator) (ha : Phrase.signed.level ≤ a.phrase.level) :
        a.leftFirst (.binary (.ofSymbol symbol)) = true :=
      BinaryOp.leftFirst_of_level_left_le _ (Nat.le_trans (BinaryOp.level_left_le_signed _) ha)
    rw [← BinaryOp.symbol_ofSymbol symbol, step_operator, step_operator, close_inner hinner hacts]
  | openParen => rw [step_openParen_of_operand, step_openParen_of_operand]
  | closeParen => rw [step_closeParen, step_closeParen, close_inner hinner fun _ _ => rfl]
  | foreign text => rw [step_foreign, step_foreign]

theorem finish_signs :
    (ofFrames (inner ++ outer) (some x)).finish = (ofFrames outer (some (fillAll inner x))).finish := by
  rw [finish_operand, finish_operand, close_inner hinner fun _ _ => rfl]

theorem run_finish_signs (tokens : List Token) :
    (ofFrames (inner ++ outer) (some x)).run tokens >>= finish =
      (ofFrames outer (some (fillAll inner x))).run tokens >>= finish := by
  cases tokens with
  | nil => exact finish_signs hinner outer x
  | cons token tokens => rw [run_cons, run_cons, step_signs hinner]

end Signed

/-- **A signed phrase reads like its tree.** -/
theorem run_signed {tokens : List Token} {e : Expr} (h : Derives .signed tokens e)
    (frames : List Frame) (after : List Token) :
    (ofFrames frames none).run (tokens ++ after) >>= finish =
      (ofFrames frames (some e)).run after >>= finish := by
  obtain ⟨inner, x, hrun, hfill, hinner⟩ := h.builds frames (.signed frames)
  rw [run_append, hrun, ← hfill]
  exact run_finish_signs hinner frames x after

end Yard

/-- Where a parenthesis opens an operand was awaited. -/
theorem run_of_ofTokens_openParen {before after : List Token} {e : Expr}
    (h : Expr.ofTokens (before ++ .openParen :: after) = .ok e) :
    ∃ frames, Yard.start.run before = .ok (.ofFrames frames none) := by
  rw [Expr.ofTokens, Yard.run_append] at h
  cases hbefore : Yard.start.run before with
  | error error =>
    rw [hbefore] at h
    contradiction
  | ok y =>
    rw [hbefore] at h
    cases Reads.run (.expecting .nil) hbefore with
    | expecting => exact ⟨_, rfl⟩
    | operand => contradiction

/-- **Where an operand is awaited, signed phrases can stand for one another.** The trees of the
whole are then related like those of the phrases, or there is the same complaint. -/
theorem alike_ofTokens_operand {R : Expr → Expr → Prop} (hR : Expr.IsCongruence R)
    (hrefl : ∀ e, R e e) {before tokens tokens' : List Token} {frames : List Frame} {e e' : Expr}
    (hbefore : Yard.start.run before = .ok (.ofFrames frames none)) (h : Derives .signed tokens e)
    (h' : Derives .signed tokens' e') (hee' : R e e') (after : List Token) :
    Alike R (Expr.ofTokens (before ++ (tokens ++ after)))
      (Expr.ofTokens (before ++ (tokens' ++ after))) := by
  have hread {us : List Token} {x : Expr} (hus : Derives .signed us x) :
      Expr.ofTokens (before ++ (us ++ after)) =
        (Yard.ofFrames frames (some x)).run after >>= Yard.finish := by
    rw [Expr.ofTokens, Yard.run_append, hbefore, ← Yard.run_signed hus]
    rfl
  rw [hread h, hread h']
  exact (Yard.Similar.ofFrames hrefl frames hee').run_finish hR after

end Calculator
