import Calculator.Proofs.Grammar
import Calculator.Proofs.Yard.Frame

/-! The yard reads the grammar.

What a yard has read is a partial derivation. Its frames, from the outermost to the
innermost, are the tokens that opened them, each binary one a derivation of its left
operand, and every frame makes a phrase that the frame around it accepts (`Opens`);
the operand read last is an atom. A token keeps that (`Reads.step`), so a tree that is
read is derived. Conversely a derivation is read from any frames that admit its phrase
(`Builds`): it opens frames of its own, none looser than the phrase, and what these
make of the last operand is its tree. -/
namespace Calculator
open Calculator.Frame

/-- Whether such a phrase can fill the innermost frame. -/
def Frame.Admits : List Frame → Phrase → Prop
  | [], _ => True
  | frame :: _, p =>
    ∀ op, frame.operator? = some op → op.operand.level ≤ p.level

/-- The frames that tokens open. -/
inductive Opens : List Token → List Frame → Prop where
  | nil : Opens [] []
  | paren {ts frames} : Opens ts frames → Opens (ts ++ [.openParen]) (.paren :: frames)
  | unary {ts frames} (op : UnaryOp) : Opens ts frames →
      Opens (ts ++ [.operator op.symbol]) (.unary op :: frames)
  | binary {ts ls frames l} (op : BinaryOp) : Opens ts frames → Admits frames op.phrase →
      Derives op.left ls l → Opens (ts ++ (ls ++ [.operator op.symbol])) (.binary l op :: frames)

/-- What the tokens read so far say of the yard. -/
inductive Reads : List Token → Yard → Prop where
  | expecting {ts frames} : Opens ts frames → Reads ts (.ofFrames frames none)
  | operand {ts us frames e} : Opens ts frames → Derives .atom us e →
      Reads (ts ++ us) (.ofFrames frames (some e))

/-! ### What is read is derived -/

theorem Frame.Admits.of_level_le {frames : List Frame} {p q : Phrase} (h : Admits frames p)
    (hpq : p.level ≤ q.level) : Admits frames q := by
  cases frames with
  | nil => trivial
  | cons frame frames => exact fun op hop => Nat.le_trans (h op hop) hpq

theorem Frame.Admits.signed (frames : List Frame) : Admits frames .signed := by
  cases frames with
  | nil => trivial
  | cons frame frames =>
    intro op _
    cases op with
    | unary op => exact Nat.le_refl _
    | binary op => exact op.level_right_le_signed

/-- Closing frames goes on with the derivation: the tokens are shared out anew between the
frames that are left and the phrase that was made. Unless nothing was closed, its level is that
of an operator that acted. -/
theorem Opens.close (act : Operator → Bool) {bound : Nat}
    (hact : ∀ op, act op = true → bound ≤ op.phrase.level) {ts us : List Token} {frames : List Frame}
    {p : Phrase} {e : Expr} (hopens : Opens ts frames) (hp : bound ≤ p.level)
    (hadmits : Admits frames p) (hderives : Derives p us e) :
    ∃ ts' us' q, ts ++ us = ts' ++ us' ∧ Opens ts' (close act e frames).2 ∧
      Derives q us' (close act e frames).1 ∧ bound ≤ q.level := by
  induction hopens generalizing us p e with
  | nil => exact ⟨[], us, p, rfl, .nil, hderives, hp⟩
  | paren hopens => exact ⟨_, us, p, rfl, hopens.paren, hderives, hp⟩
  | @unary ts frames op hopens ih =>
    by_cases h : act (.unary op) = true
    · have hfill : Derives .signed (.operator op.symbol :: us) (.unary op e) :=
        (hderives.mono (hadmits _ rfl)).sign op
      obtain ⟨ts', us', q, heq, hrest⟩ := ih (hact _ h) (.signed frames) hfill
      refine ⟨ts', us', q, ?_, ?_⟩
      · rw [← heq, List.append_assoc, List.singleton_append]
      · rwa [close_cons_of_acts rfl h]
    · refine ⟨_, us, p, rfl, ?_⟩
      rw [close_of_holds (by simpa [Holds, operator?] using h)]
      exact ⟨hopens.unary op, hderives, hp⟩
  | @binary ts ls frames l op hopens hphrase hl ih =>
    by_cases h : act (.binary op) = true
    · have hfill : Derives op.phrase (ls ++ .operator op.symbol :: us) (.binary op l e) :=
        .binary op hl (hderives.mono (hadmits _ rfl))
      obtain ⟨ts', us', q, heq, hrest⟩ := ih (hact _ h) hphrase hfill
      refine ⟨ts', us', q, ?_, ?_⟩
      · rw [← heq]
        simp only [List.append_assoc, List.singleton_append]
      · rwa [close_cons_of_acts rfl h]
    · refine ⟨_, us, p, rfl, ?_⟩
      rw [close_of_holds (by simpa [Holds, operator?] using h)]
      exact ⟨hopens.binary op hphrase hl, hderives, hp⟩

theorem bound_of_leftFirst (b : BinaryOp) (a : Operator) (h : a.leftFirst (.binary b) = true) :
    b.left.level ≤ a.phrase.level := by
  rwa [Operator.leftFirst_eq_left, decide_eq_true_eq] at h

/-- An atom fills every frame. -/
theorem Frame.Admits.atom (frames : List Frame) : Admits frames .atom :=
  (Admits.signed frames).of_level_le (by decide)

/-- A frame that does not come before an operator admits the phrase that the operator makes. -/
theorem Frame.admits_close (op : BinaryOp) (e : Expr) (frames : List Frame) :
    Admits (close (·.leftFirst (.binary op)) e frames).2 op.phrase := by
  have hholds := holds_close (·.leftFirst (.binary op)) e frames
  generalize (close (·.leftFirst (.binary op)) e frames).2 = rest at hholds ⊢
  cases rest with
  | nil => trivial
  | cons frame rest =>
    intro a ha
    have hlast : a.leftFirst (.binary op) = false := hholds a ha
    rw [Operator.leftFirst_eq_right, decide_eq_false_iff_not] at hlast
    omega

/-- All frames closed, a phrase of any kind stands between parentheses or at the outermost. -/
theorem Opens.close_all {ts us : List Token} {frames : List Frame} {e : Expr}
    (hopens : Opens ts frames) (hatom : Derives .atom us e) :
    ∃ ts' us', ts ++ us = ts' ++ us' ∧ Opens ts' (Frame.close (fun _ => true) e frames).2 ∧
      Derives .sum us' (Frame.close (fun _ => true) e frames).1 := by
  obtain ⟨ts', us', q, heq, hopens', hderives', hq⟩ :=
    hopens.close (fun _ => true) (fun op _ => op.phrase.level_sum_le) (Phrase.level_sum_le _)
      (.atom frames) hatom
  exact ⟨ts', us', heq, hopens', hderives'.mono hq⟩

theorem Opens.step {ts : List Token} {frames : List Frame} {token : Token} {y : Yard}
    (hopens : Opens ts frames) (hstep : (Yard.ofFrames frames none).step token = .ok y) :
    Reads (ts ++ [token]) y := by
  cases token with
  | number x =>
    rw [Yard.step_number] at hstep
    cases hstep
    exact .operand hopens (.number x)
  | operator symbol =>
    cases hsymbol : UnaryOp.ofSymbol? symbol with
    | none =>
      rw [Yard.step_operator_of_expecting frames hsymbol] at hstep
      contradiction
    | some op =>
      obtain rfl : op.symbol = symbol := by
        cases symbol <;> cases hsymbol <;> rfl
      rw [Yard.step_sign] at hstep
      cases hstep
      exact .expecting (hopens.unary op)
  | openParen =>
    rw [Yard.step_openParen] at hstep
    cases hstep
    exact .expecting hopens.paren
  | closeParen =>
    rw [Yard.step_closeParen_of_expecting] at hstep
    contradiction
  | foreign text =>
    rw [Yard.step_foreign] at hstep
    contradiction

theorem Opens.step_operand {ts us : List Token} {frames : List Frame} {e : Expr} {token : Token}
    {y : Yard} (hopens : Opens ts frames) (hatom : Derives .atom us e)
    (hstep : (Yard.ofFrames frames (some e)).step token = .ok y) :
    Reads (ts ++ us ++ [token]) y := by
  cases token with
  | number x =>
    rw [Yard.step_number_of_operand] at hstep
    contradiction
  | operator symbol =>
    obtain ⟨op, rfl⟩ : ∃ op : BinaryOp, symbol = op.symbol := ⟨.ofSymbol symbol, by simp⟩
    obtain ⟨ts', us', q, heq, hopens', hderives', hq⟩ :=
      hopens.close (·.leftFirst (.binary op)) (bound_of_leftFirst op) op.left.level_le_atom
        (.atom frames) hatom
    rw [Yard.step_operator] at hstep
    cases hstep
    rw [heq, List.append_assoc]
    exact .expecting (hopens'.binary op (admits_close op e frames) (hderives'.mono hq))
  | openParen =>
    rw [Yard.step_openParen_of_operand] at hstep
    contradiction
  | closeParen =>
    obtain ⟨ts', us', heq, hopens', hderives'⟩ := hopens.close_all hatom
    have hholds := holds_close (fun _ => true) e frames
    rw [Yard.step_closeParen] at hstep
    generalize Frame.close (fun _ => true) e frames = result at hopens' hderives' hholds hstep
    obtain ⟨e', _ | ⟨frame, frames'⟩⟩ := result
    · contradiction
    · cases hstep
      -- What did not close is the mate.
      cases eq_paren_of_holds hholds
      cases hopens' with
      | paren hopens' =>
        rw [heq, List.append_assoc, List.append_assoc]
        exact .operand hopens' hderives'.group
  | foreign text =>
    rw [Yard.step_foreign] at hstep
    contradiction

theorem Reads.step {ts : List Token} {token : Token} {y y' : Yard} (h : Reads ts y)
    (hstep : y.step token = .ok y') : Reads (ts ++ [token]) y' := by
  cases h with
  | expecting hopens => exact hopens.step hstep
  | operand hopens hatom => exact hopens.step_operand hatom hstep

theorem Reads.run {ts us : List Token} {y y' : Yard} (h : Reads ts y) (hrun : y.run us = .ok y') :
    Reads (ts ++ us) y' := by
  induction us generalizing ts y with
  | nil =>
    cases hrun
    rwa [List.append_nil]
  | cons token us ih =>
    rw [Yard.run_cons] at hrun
    cases hstep : y.step token with
    | error error =>
      rw [hstep] at hrun
      contradiction
    | ok next =>
      rw [hstep] at hrun
      rw [List.append_cons]
      exact ih (h.step hstep) hrun

theorem Reads.finish {ts : List Token} {y : Yard} {e : Expr} (h : Reads ts y)
    (hfinish : y.finish = .ok e) : Derives .sum ts e := by
  cases h with
  | expecting => exact absurd hfinish (Yard.finish_expecting _ e)
  | @operand ts us frames x hopens hatom =>
    obtain ⟨ts', us', heq, hopens', hderives'⟩ := hopens.close_all hatom
    rw [Yard.finish_operand] at hfinish
    generalize Frame.close (fun _ => true) x frames = result at hopens' hderives' hfinish
    obtain ⟨e', _ | ⟨frame, frames'⟩⟩ := result
    · cases hfinish
      cases hopens'
      rwa [heq]
    · contradiction

theorem derives_of_ofTokens {tokens : List Token} {e : Expr} (h : Expr.ofTokens tokens = .ok e) :
    Derives .sum tokens e := by
  rw [Expr.ofTokens] at h
  cases hrun : Yard.start.run tokens with
  | error error =>
    rw [hrun] at h
    contradiction
  | ok y =>
    rw [hrun] at h
    exact (Reads.run (.expecting .nil) hrun).finish h

/-! ### What is derived is read -/

/-- Read from frames that admit the phrase, the tokens open frames that are not looser, around an
operand; closing them makes the tree. -/
def Builds (p : Phrase) (tokens : List Token) (e : Expr) : Prop :=
  ∀ outer, Admits outer p → ∃ inner x,
    (Yard.ofFrames outer none).run tokens = .ok (.ofFrames (inner ++ outer) (some x)) ∧
      fillAll inner x = e ∧
      ∀ frame ∈ inner, ∃ op, frame.operator? = some op ∧ p.level ≤ op.phrase.level

/-- Inner frames that are not looser than a phrase are closed by what lets all such operators act. -/
theorem Frame.close_inner {phrase : Phrase} {inner : List Frame}
    (hinner : ∀ frame ∈ inner, ∃ op, frame.operator? = some op ∧ phrase.level ≤ op.phrase.level)
    {p : Operator → Bool} (hp : ∀ op : Operator, phrase.level ≤ op.phrase.level → p op = true)
    (e : Expr) (outer : List Frame) :
    close p e (inner ++ outer) = close p (fillAll inner e) outer := by
  refine close_append (fun frame hframe => ?_) e outer
  obtain ⟨op, hop, hlevel⟩ := hinner frame hframe
  exact ⟨op, hop, hp op hlevel⟩

theorem BinaryOp.leftFirst_of_level_left_le (op : BinaryOp) {a : Operator}
    (h : op.left.level ≤ a.phrase.level) : a.leftFirst (.binary op) = true := by
  rw [Operator.leftFirst_eq_left]
  exact decide_eq_true h

theorem Frame.Admits.holds {frames : List Frame} {op : BinaryOp} (h : Admits frames op.phrase) :
    Holds (·.leftFirst (.binary op)) frames := by
  cases frames with
  | nil => trivial
  | cons frame frames =>
    intro a ha
    show a.leftFirst (.binary op) = false
    rw [Operator.leftFirst_eq_right, decide_eq_false_iff_not]
    exact Nat.not_lt.2 (h a ha)

namespace Builds

theorem mono {p q : Phrase} {tokens : List Token} {e : Expr} (h : Builds q tokens e)
    (hpq : p.level ≤ q.level) : Builds p tokens e := by
  intro outer houter
  obtain ⟨inner, x, hrun, hfill, hinner⟩ := h outer (houter.of_level_le hpq)
  refine ⟨inner, x, hrun, hfill, fun frame hframe => ?_⟩
  obtain ⟨op, hop, hlevel⟩ := hinner frame hframe
  exact ⟨op, hop, Nat.le_trans hpq hlevel⟩

theorem number (x : Float) : Builds .atom [.number x] (.constant x) := by
  intro outer _
  refine ⟨[], .constant x, ?_, rfl, by simp⟩
  rw [Yard.run_cons, Yard.step_number]
  rfl

theorem sign {tokens : List Token} {e : Expr} (op : UnaryOp) (h : Builds .signed tokens e) :
    Builds .signed (.operator op.symbol :: tokens) (.unary op e) := by
  intro outer _
  obtain ⟨inner, x, hrun, hfill, hinner⟩ := h (.unary op :: outer) (.signed _)
  refine ⟨inner ++ [.unary op], x, ?_, ?_, ?_⟩
  · rw [Yard.run_cons, Yard.step_sign, List.append_assoc]
    exact hrun
  · rw [fillAll_append_singleton, hfill]
    rfl
  · intro frame hframe
    rcases List.mem_append.1 hframe with hframe | hframe
    · exact hinner frame hframe
    · obtain rfl := List.mem_singleton.1 hframe
      exact ⟨.unary op, rfl, Nat.le_refl _⟩

/-- The left operand is complete when its operator comes, and no frame around it is closed. -/
theorem binary {ls rs : List Token} {l r : Expr} (op : BinaryOp) (hl : Builds op.left ls l)
    (hr : Builds op.right rs r) :
    Builds op.phrase (ls ++ .operator op.symbol :: rs) (.binary op l r) := by
  intro outer houter
  obtain ⟨innerL, x, hrunL, hfillL, hinnerL⟩ := hl outer (houter.of_level_le op.level_phrase_le_left)
  have hclose : close (·.leftFirst (.binary op)) x (innerL ++ outer) = (l, outer) := by
    rw [close_inner hinnerL fun _ => op.leftFirst_of_level_left_le, hfillL,
      close_of_holds houter.holds]
  have hadmits : Admits (.binary l op :: outer) op.right := by
    intro a ha
    cases ha
    exact Nat.le_refl _
  obtain ⟨innerR, y, hrunR, hfillR, hinnerR⟩ := hr (.binary l op :: outer) hadmits
  refine ⟨innerR ++ [.binary l op], y, ?_, ?_, ?_⟩
  · rw [Yard.run_append, hrunL]
    show (Yard.ofFrames (innerL ++ outer) (some x)).run (.operator op.symbol :: rs) = _
    rw [Yard.run_cons, Yard.step_operator, hclose, List.append_assoc]
    exact hrunR
  · rw [fillAll_append_singleton, hfillR]
    rfl
  · intro frame hframe
    rcases List.mem_append.1 hframe with hframe | hframe
    · obtain ⟨a, ha, hlevel⟩ := hinnerR frame hframe
      exact ⟨a, ha, Nat.le_trans op.level_phrase_le_right hlevel⟩
    · obtain rfl := List.mem_singleton.1 hframe
      exact ⟨.binary op, rfl, Nat.le_refl _⟩

theorem close_all {inner : List Frame} {p : Phrase}
    (h : ∀ frame ∈ inner, ∃ op, frame.operator? = some op ∧ p.level ≤ op.phrase.level) {outer : List Frame}
    (houter : Holds (fun _ => true) outer) (e : Expr) :
    close (fun _ => true) e (inner ++ outer) = (fillAll inner e, outer) := by
  rw [close_inner h fun _ _ => rfl, close_of_holds houter]

theorem group {tokens : List Token} {e : Expr} (h : Builds .sum tokens e) :
    Builds .atom (.openParen :: tokens ++ [.closeParen]) e := by
  intro outer _
  have hadmits : Admits (.paren :: outer) .sum := fun op hop => by contradiction
  obtain ⟨inner, x, hrun, hfill, hinner⟩ := h (.paren :: outer) hadmits
  refine ⟨[], e, ?_, rfl, by simp⟩
  rw [List.cons_append, Yard.run_cons, Yard.step_openParen]
  show (Yard.ofFrames (.paren :: outer) none).run (tokens ++ [.closeParen]) = _
  rw [Yard.run_append, hrun]
  show (Yard.ofFrames (inner ++ .paren :: outer) (some x)).run [.closeParen] = _
  rw [Yard.run_cons, Yard.step_closeParen, close_all hinner (holds_paren _ outer), hfill]
  rfl

end Builds

theorem Derives.builds {p : Phrase} {tokens : List Token} {e : Expr} (h : Derives p tokens e) :
    Builds p tokens e := by
  induction h using Derives.inductLevel with
  | mono hpq _ ih => exact ih.mono hpq
  | number x => exact .number x
  | sign op _ ih => exact .sign op ih
  | binary op _ _ ihl ihr => exact .binary op ihl ihr
  | group _ ih => exact .group ih

theorem ofTokens_of_derives {tokens : List Token} {e : Expr} (h : Derives .sum tokens e) :
    Expr.ofTokens tokens = .ok e := by
  obtain ⟨inner, x, hrun, hfill, hinner⟩ := h.builds [] trivial
  rw [Expr.ofTokens, Yard.start_eq_ofFrames, hrun]
  show (Yard.ofFrames (inner ++ []) (some x)).finish = _
  rw [Yard.finish_operand, Builds.close_all hinner (holds_nil _), hfill]

/-- **The yard reads exactly the grammar.** It answers the tree derived, and complains of every
list that has no derivation; one that holds something foreign has none. -/
theorem ofTokens_eq_ok_iff_derives (tokens : List Token) :
    (∀ e, Expr.ofTokens tokens = .ok e ↔ Derives .sum tokens e) ∧
      ((¬ ∃ e, Derives .sum tokens e) → ∃ error, Expr.ofTokens tokens = .error error) ∧
      ((∃ token ∈ tokens, ¬ token.IsGenuine) → ∃ error, Expr.ofTokens tokens = .error error) := by
  have hiff (e : Expr) : Expr.ofTokens tokens = .ok e ↔ Derives .sum tokens e :=
    ⟨derives_of_ofTokens, ofTokens_of_derives⟩
  have hnone (h : ¬ ∃ e, Derives .sum tokens e) : ∃ error, Expr.ofTokens tokens = .error error := by
    cases hread : Expr.ofTokens tokens with
    | ok e => exact absurd ⟨e, (hiff e).1 hread⟩ h
    | error error => exact ⟨error, rfl⟩
  refine ⟨hiff, hnone, ?_⟩
  rintro ⟨token, hmem, hforeign⟩
  exact hnone fun ⟨e, he⟩ => hforeign (he.isGenuine token hmem)

/-- Something foreign after an operator has no derivation and is refused. -/
theorem ofTokens_foreign_operand :
    (¬ ∃ e, Derives .sum [.number 1, .operator .plus, .foreign "x"] e) ∧
      (∃ token ∈ [Token.number 1, .operator .plus, .foreign "x"], ¬ token.IsGenuine) ∧
      ∃ error, Expr.ofTokens [.number 1, .operator .plus, .foreign "x"] = .error error := by
  obtain ⟨hiff, -, hforeign⟩ :=
    ofTokens_eq_ok_iff_derives [.number 1, .operator .plus, .foreign "x"]
  have hno : ¬ ∃ e, Derives .sum [.number 1, .operator .plus, .foreign "x"] e := by
    rintro ⟨e, he⟩
    have hread := (hiff e).2 he
    contradiction
  have hmem : ∃ token ∈ [Token.number 1, .operator .plus, .foreign "x"], ¬ token.IsGenuine :=
    ⟨.foreign "x", by simp, id⟩
  exact ⟨hno, hmem, hforeign hmem⟩

end Calculator
