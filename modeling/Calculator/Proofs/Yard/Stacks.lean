import Calculator.Proofs.Yard.Grammar
import Calculator.Proofs.Yard.Viable
import Mathlib.Data.List.Chain

/-! The stacks of a yard.

What waits in a yard that was reached by reading tokens has a shape. Inside every parenthesis
that is open, and outside of all, operators between operands come first, each binding tighter
than the one around it unless both are powers (`BinaryOp.Encloses`), and signs come after
them, as an operator that is read closes the signs before it (`Opens.isChain_entries`). There
is one operand for each operator between operands, and one more after an operand, so none
of them lacks operands while tokens are read (`Yard.stacks_of_run`). -/
namespace Calculator
open Calculator.Frame

/-! ### Layers -/

/-- The outer one binds less tightly, unless both are powers. -/
def BinaryOp.Encloses (outer inner : BinaryOp) : Prop :=
  (Operator.binary outer).precedence ≤ (Operator.binary inner).precedence ∧
    ((Operator.binary outer).precedence = (Operator.binary inner).precedence →
      outer = .power ∧ inner = .power)

namespace BinaryOp

theorem encloses_of_level_le {outer inner : BinaryOp} (h : outer.right.level ≤ inner.phrase.level) :
    outer.Encloses inner := by
  unfold Encloses
  revert h
  cases outer <;> cases inner <;> decide

theorem Encloses.trans {a b c : BinaryOp} (hab : a.Encloses b) (hbc : b.Encloses c) :
    a.Encloses c := by
  obtain ⟨hle, heq⟩ := hab
  obtain ⟨hle', heq'⟩ := hbc
  refine ⟨Nat.le_trans hle hle', fun h => ⟨(heq ?_).1, (heq' ?_).2⟩⟩ <;> omega

instance : Trans Encloses Encloses Encloses := ⟨Encloses.trans⟩

end BinaryOp

/-- Directly inside an operator an operator between operands waits only if that encloses it. -/
def Entry.CanHold (outer inner : Entry) : Prop :=
  ∀ a b, outer = .operator a → inner = .operator (.binary b) → ∃ c, a = .binary c ∧ c.Encloses b

/-- A yard that was reached is one of open frames. -/
theorem Reads.exists_frames {ts : List Token} {y : Yard} (h : Reads ts y) :
    ∃ us frames operand?, Opens us frames ∧ y = .ofFrames frames operand? := by
  cases h with
  | expecting hopens => exact ⟨_, _, none, hopens, rfl⟩
  | operand hopens hatom => exact ⟨_, _, some _, hopens, rfl⟩

/-- Read from the outermost, every entry can hold the next. -/
theorem Opens.isChain_entries {ts : List Token} {frames : List Frame} (h : Opens ts frames) :
    (frames.map Frame.entry).reverse.IsChain Entry.CanHold := by
  rw [List.isChain_reverse]
  induction h with
  | nil => exact .nil
  | paren _ ih | unary op _ ih =>
    refine List.isChain_cons.2 ⟨?_, ih⟩
    rintro _ _ _ _ _ ⟨⟩
  | @binary ts ls frames l op hopens hadmits hl ih =>
    refine List.isChain_cons.2 ⟨?_, ih⟩
    rintro _ hmem a _ rfl ⟨⟩
    cases frames with
    | nil => contradiction
    | cons frame frames =>
      cases frame with
      | paren => cases hmem
      | unary sign =>
        -- A sign is too tight to have such an operator inside.
        have hlevel : Phrase.signed.level ≤ op.phrase.level := hadmits (.unary sign) rfl
        cases op <;> exact absurd hlevel (by decide)
      | binary l' op' =>
        cases hmem
        exact ⟨op', rfl, BinaryOp.encloses_of_level_le (hadmits (.binary op') rfl)⟩

/-- Operators that hold one another are layers, with signs inside of all. -/
theorem exists_layers {segment : List Operator}
    (h : (segment.map Entry.operator).IsChain Entry.CanHold) :
    ∃ (binaries : List BinaryOp) (signs : List UnaryOp),
      segment = binaries.map .binary ++ signs.map .unary ∧ binaries.IsChain BinaryOp.Encloses := by
  induction segment with
  | nil => exact ⟨[], [], rfl, .nil⟩
  | cons op segment ih =>
    obtain ⟨hhead, htail⟩ := List.isChain_cons.1 h
    obtain ⟨binaries, signs, rfl, hchain⟩ := ih htail
    cases op with
    | unary sign =>
      cases binaries with
      | nil => exact ⟨[], sign :: signs, rfl, .nil⟩
      | cons b binaries =>
        obtain ⟨c, hc, -⟩ := hhead _ rfl _ b rfl rfl
        contradiction
    | binary a =>
      refine ⟨a :: binaries, signs, rfl, List.isChain_cons.2 ⟨fun b hb => ?_, hchain⟩⟩
      cases binaries with
      | nil => contradiction
      | cons b' binaries =>
        cases hb
        obtain ⟨c, hc, hencloses⟩ := hhead _ rfl _ b rfl rfl
        cases hc
        exact hencloses

/-- Of two operators of one precedence, neither a power, one can be among the layers, and once. -/
theorem countP_layers_le_one (x y : BinaryOp)
    (hxy : (Operator.binary x).precedence = (Operator.binary y).precedence) (hx : x ≠ .power)
    (hy : y ≠ .power) {binaries : List BinaryOp} (hchain : binaries.IsChain BinaryOp.Encloses)
    (signs : List UnaryOp) :
    (binaries.map Operator.binary ++ signs.map Operator.unary).countP
      (fun op => op = .binary x ∨ op = .binary y) ≤ 1 := by
  have hexcludes {a b : BinaryOp} (ha : a = x ∨ a = y) (hb : b = x ∨ b = y) : ¬ a.Encloses b := by
    rintro ⟨-, hpower⟩
    have hsame : (Operator.binary a).precedence = (Operator.binary b).precedence := by
      rcases ha with rfl | rfl <;> rcases hb with rfl | rfl <;> simp [hxy]
    obtain ⟨rfl, -⟩ := hpower hsame
    exact ha.elim (hx ·.symm) (hy ·.symm)
  have hsigns : (signs.map Operator.unary).countP (fun op => op = .binary x ∨ op = .binary y) = 0 := by
    simp [List.countP_eq_zero]
  have hbinaries : binaries.Pairwise BinaryOp.Encloses := hchain.pairwise
  clear hchain
  rw [List.countP_append, hsigns, Nat.add_zero]
  induction hbinaries with
  | nil => exact Nat.zero_le 1
  | @cons a binaries hencloses _ ih =>
    rw [List.map_cons, List.countP_cons]
    split
    · next ha =>
      have hnone : (binaries.map Operator.binary).countP
          (fun op => op = .binary x ∨ op = .binary y) = 0 := by
        rw [List.countP_eq_zero]
        intro op hmem hop
        obtain ⟨b, hb, rfl⟩ := List.mem_map.1 hmem
        exact hexcludes (by simpa using ha) (by simpa using hop) (hencloses b hb)
      omega
    · exact ih

/-! ### Counting -/

theorem Counter.depth_run (c : Counter) (tokens : List Token) :
    (c.run tokens).depth = c.depth + tokens.count .openParen - tokens.count .closeParen := by
  induction tokens generalizing c with
  | nil => simp [run]
  | cons token tokens ih =>
    show ((c.next token).run tokens).depth = _
    rw [ih, List.count_cons, List.count_cons]
    cases token <;> simp [next] <;> omega

theorem Frame.count_paren_entries (frames : List Frame) :
    (frames.map Frame.entry).count .paren = frames.count .paren := by
  induction frames with
  | nil => rfl
  | cons frame frames ih =>
    rw [List.map_cons, List.count_cons, List.count_cons, ih]
    cases frame <;> rfl

theorem Counter.exists_complaint {c : Counter} {tokens : List Token} {error : Malformed}
    (h : c.firstComplaint? tokens = some error) :
    ∃ (c' : Counter) (token : Token), c'.complaint? token = some error := by
  induction tokens generalizing c with
  | nil => contradiction
  | cons token tokens ih =>
    rw [firstComplaint?, Option.or_eq_some_iff] at h
    rcases h with h | ⟨-, h⟩
    · exact ⟨c, token, h⟩
    · exact ih h

namespace Yard

theorem run_ne_missingOperand (tokens : List Token) (op : Operator) :
    start.run tokens ≠ .error (.missingOperand op) := by
  intro hrun
  cases hcomplaint : Counter.start.firstComplaint? tokens with
  | none =>
    obtain ⟨y, hok, -⟩ := Counter.Agrees.start.run_of_no_complaint hcomplaint
    rw [hok] at hrun
    contradiction
  | some error =>
    rw [Counter.Agrees.start.run_of_complaint hcomplaint] at hrun
    cases hrun
    obtain ⟨c, token, htoken⟩ := Counter.exists_complaint hcomplaint
    exact c.complaint?_ne_missingOperand token op htoken

theorem length_operands_ofFrames (frames : List Frame) (operand? : Option Expr) :
    (ofFrames frames operand?).operands.length =
      joints (ofFrames frames operand?).entries +
        if (ofFrames frames operand?).expecting then 0 else 1 := by
  cases operand? with
  | none => exact length_operands frames
  | some e => exact congrArg (· + 1) (length_operands frames)

theorem count_paren_of_run {tokens : List Token} {y : Yard} (h : start.run tokens = .ok y) :
    (y.entries.count .paren : Int) = tokens.count .openParen - tokens.count .closeParen := by
  obtain ⟨y', hrun, hagrees⟩ :=
    Counter.Agrees.start.run_of_no_complaint (firstComplaint?_of_run h)
  cases hrun.symm.trans h
  obtain ⟨frames, operand?, rfl, -, hdepth⟩ := hagrees
  have hcount := Frame.count_paren_entries frames
  rw [Counter.depth_run] at hdepth
  show ((frames.map Frame.entry).count .paren : Int) = _
  rw [hcount, ← hdepth]
  exact congrArg (· - _) (Int.zero_add _)

/-- **The shape of what waits.** When tokens have been taken in, whatever comes after them, there
are as many operands as operators between operands, and one more after an operand, and as many
parentheses wait as have been opened and not closed. Where no parenthesis comes between, the
entries from the outermost are operators between operands, each enclosing the next, and then
signs; so there is one sum or difference among them at most, and one product or quotient. While
tokens are taken in no operator ever lacks operands. -/
theorem stacks_of_run (tokens : List Token) :
    (∀ y, start.run tokens = .ok y →
      y.operands.length = joints y.entries + (if y.expecting then 0 else 1) ∧
      (y.entries.count .paren : Int) = tokens.count .openParen - tokens.count .closeParen ∧
      ∀ segment : List Operator, segment.map Entry.operator <:+: y.entries.reverse →
        (∃ (binaries : List BinaryOp) (signs : List UnaryOp),
          segment = binaries.map .binary ++ signs.map .unary ∧
            binaries.IsChain BinaryOp.Encloses) ∧
        segment.countP (fun op => op = .binary .add ∨ op = .binary .subtract) ≤ 1 ∧
        segment.countP (fun op => op = .binary .multiply ∨ op = .binary .divide) ≤ 1) ∧
    ∀ op, start.run tokens ≠ .error (.missingOperand op) := by
  refine ⟨fun y hrun => ?_, run_ne_missingOperand tokens⟩
  have hparens := count_paren_of_run hrun
  obtain ⟨us, frames, operand?, hopens, rfl⟩ := (Reads.run (.expecting .nil) hrun).exists_frames
  refine ⟨length_operands_ofFrames frames operand?, hparens, fun segment hsegment => ?_⟩
  have hholds := List.IsChain.infix hopens.isChain_entries hsegment
  obtain ⟨binaries, signs, rfl, hchain⟩ := exists_layers hholds
  exact ⟨⟨binaries, signs, rfl, hchain⟩,
    countP_layers_le_one .add .subtract rfl (by decide) (by decide) hchain signs,
    countP_layers_le_one .multiply .divide rfl (by decide) (by decide) hchain signs⟩

/-- After `1 + 2 * (-3 ^` a power waits in parentheses, and outside of them a product in a sum. -/
theorem stacks_of_run_power :
    start.run [.number 1, .operator .plus, .number 2, .operator .times, .openParen,
        .operator .minus, .number 3, .operator .power] =
      .ok ⟨[.unary .minus (.constant 3), .constant 2, .constant 1],
        [.operator (.binary .power), .paren, .operator (.binary .multiply),
          .operator (.binary .add)], true⟩ ∧
      [Operator.binary .add, .binary .multiply].map Entry.operator <:+:
        [.operator (.binary .add), .operator (.binary .multiply), .paren,
          .operator (.binary .power)] ∧
      ∃ (binaries : List BinaryOp) (signs : List UnaryOp),
        [Operator.binary .add, .binary .multiply] = binaries.map .binary ++ signs.map .unary ∧
          binaries.IsChain BinaryOp.Encloses := by
  have hrun : start.run [.number 1, .operator .plus, .number 2, .operator .times, .openParen,
      .operator .minus, .number 3, .operator .power] =
    .ok ⟨[.unary .minus (.constant 3), .constant 2, .constant 1],
      [.operator (.binary .power), .paren, .operator (.binary .multiply),
        .operator (.binary .add)], true⟩ := rfl
  have hsegment : [Operator.binary .add, .binary .multiply].map Entry.operator <:+:
      [.operator (.binary .add), .operator (.binary .multiply), .paren,
        .operator (.binary .power)] := ⟨[], [.paren, .operator (.binary .power)], rfl⟩
  obtain ⟨hshape, -⟩ := stacks_of_run [.number 1, .operator .plus, .number 2, .operator .times,
    .openParen, .operator .minus, .number 3, .operator .power]
  obtain ⟨-, -, hlayers⟩ := hshape _ hrun
  exact ⟨hrun, hsegment, (hlayers _ hsegment).1⟩

end Yard
end Calculator
