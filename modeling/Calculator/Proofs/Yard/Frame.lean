import Calculator.Proofs.Yard.Step

/-! A yard as open frames around a hole.

A yard that was reached by reading tokens is one tree with a hole in it: every entry
that waits is a frame, a binary operator together with its left operand, and the
operand read last, if there is one, fills the hole of the innermost frame. `ofFrames`
is the yard of such a tree. On it no operator ever lacks an operand, applying
operators is closing frames (`reduceWhile_ofFrames`), and there is one equation for
each token and for the end. -/
namespace Calculator

inductive Frame where
  | unary (op : UnaryOp)
  | binary (left : Expr) (op : BinaryOp)
  | paren
deriving DecidableEq, Repr

namespace Frame

def operator? : Frame → Option Operator
  | .unary op => some (.unary op)
  | .binary _ op => some (.binary op)
  | .paren => none

def entry : Frame → Entry
  | .unary op => .operator (.unary op)
  | .binary _ op => .operator (.binary op)
  | .paren => .paren

/-- The left operand, if the frame has one. -/
def operands : Frame → List Expr
  | .binary l _ => [l]
  | _ => []

/-- The tree with the hole filled. -/
def fill : Frame → Expr → Expr
  | .unary op, e => .unary op e
  | .binary l op, e => .binary op l e
  | .paren, e => e

/-- Fills the innermost frame, that one fills the next, and so on. -/
def fillAll (frames : List Frame) (e : Expr) : Expr :=
  frames.foldl (fun e frame => frame.fill e) e

/-- Closes the innermost frames around an operand, as many as `p` lets act and up to a
parenthesis at most: what they make, and the frames left. -/
def close (p : Operator → Bool) (e : Expr) : List Frame → Expr × List Frame
  | [] => (e, [])
  | frame :: frames =>
    match frame.operator? with
    | some op => if p op then close p (frame.fill e) frames else (e, frame :: frames)
    | none => (e, frame :: frames)

theorem apply_operands {frame : Frame} {op : Operator} (h : frame.operator? = some op) (e : Expr)
    (below : List Expr) :
    op.apply (e :: (frame.operands ++ below)) = .ok (frame.fill e :: below) := by
  cases frame <;> cases h <;> rfl

theorem entry_of_operator? {frame : Frame} {op : Operator} (h : frame.operator? = some op) :
    frame.entry = .operator op := by
  cases frame <;> cases h <;> rfl

theorem eq_paren_of_operator? {frame : Frame} (h : frame.operator? = none) : frame = .paren := by
  cases frame <;> first | contradiction | rfl

theorem fillAll_append_singleton (inner : List Frame) (frame : Frame) (e : Expr) :
    fillAll (inner ++ [frame]) e = frame.fill (fillAll inner e) := by
  rw [fillAll, List.foldl_append]
  rfl

/-- Whether the innermost frame stays as it is when the operators of `p` act. -/
def Holds (p : Operator → Bool) : List Frame → Prop
  | [] => True
  | frame :: _ => ∀ op, frame.operator? = some op → p op = false

theorem holds_nil (p : Operator → Bool) : Holds p [] := trivial

theorem holds_paren (p : Operator → Bool) (frames : List Frame) : Holds p (.paren :: frames) :=
  fun _ hop => by contradiction

theorem close_cons_of_acts {p : Operator → Bool} {frame : Frame} {op : Operator}
    (hop : frame.operator? = some op) (hp : p op = true) {e : Expr} {frames : List Frame} :
    close p e (frame :: frames) = close p (frame.fill e) frames := by
  rw [close, hop]
  exact if_pos hp

theorem close_of_holds {p : Operator → Bool} {frames : List Frame} (h : Holds p frames) (e : Expr) :
    close p e frames = (e, frames) := by
  cases frames with
  | nil => rfl
  | cons frame frames =>
    rw [close]
    cases hop : frame.operator? with
    | none => rfl
    | some op => exact if_neg (by simp [h op hop])

theorem holds_close (p : Operator → Bool) (e : Expr) (frames : List Frame) :
    Holds p (close p e frames).2 := by
  induction frames generalizing e with
  | nil => trivial
  | cons frame frames ih =>
    by_cases h : Holds p (frame :: frames)
    · rwa [close_of_holds h]
    · obtain ⟨op, hop, hp⟩ : ∃ op, frame.operator? = some op ∧ p op = true := by
        simpa [Holds] using h
      rw [close_cons_of_acts hop hp]
      exact ih _

/-- Frames that all act are closed. -/
theorem close_append {p : Operator → Bool} {inner : List Frame}
    (h : ∀ frame ∈ inner, ∃ op, frame.operator? = some op ∧ p op = true) (e : Expr)
    (outer : List Frame) : close p e (inner ++ outer) = close p (fillAll inner e) outer := by
  induction inner generalizing e with
  | nil => rfl
  | cons frame inner ih =>
    obtain ⟨op, hop, hp⟩ := h frame (List.mem_cons_self ..)
    rw [List.cons_append, close_cons_of_acts hop hp]
    exact ih (fun f hf => h f (List.mem_cons_of_mem frame hf)) _

/-- If all operators act, a parenthesis stops them. -/
theorem eq_paren_of_holds {frame : Frame} {frames : List Frame}
    (h : Holds (fun _ => true) (frame :: frames)) : frame = .paren := by
  apply eq_paren_of_operator?
  cases hop : frame.operator? with
  | none => rfl
  | some op => exact absurd (h op hop) (by simp)

end Frame

namespace Yard
open Calculator.Frame

/-- The yard of open frames and of the operand read last. -/
def ofFrames (frames : List Frame) (operand? : Option Expr) : Yard where
  operands := operand?.toList ++ frames.flatMap Frame.operands
  entries := frames.map Frame.entry
  expecting := operand?.isNone

theorem start_eq_ofFrames : start = ofFrames [] none := rfl

theorem reduceWhile_ofFrames (p : Operator → Bool) (e : Expr) (frames : List Frame) :
    reduceWhile p (e :: frames.flatMap Frame.operands) (frames.map Frame.entry) =
      .ok ((close p e frames).1 :: (close p e frames).2.flatMap Frame.operands,
        (close p e frames).2.map Frame.entry) := by
  induction frames generalizing e with
  | nil => rfl
  | cons frame frames ih =>
    rw [close, List.flatMap_cons, List.map_cons]
    cases hop : frame.operator? with
    | none =>
      cases eq_paren_of_operator? hop
      rfl
    | some op =>
      rw [entry_of_operator? hop, reduceWhile]
      dsimp only
      split
      · rw [apply_operands hop]
        exact ih _
      · rw [List.flatMap_cons, List.map_cons, entry_of_operator? hop]

/-! ### One equation for each token -/

section Step
variable (frames : List Frame) (e : Expr)

theorem step_number (x : Float) :
    (ofFrames frames none).step (.number x) = .ok (ofFrames frames (some (.constant x))) := rfl

theorem step_sign (op : UnaryOp) :
    (ofFrames frames none).step (.operator op.symbol) = .ok (ofFrames (.unary op :: frames) none) := by
  cases op <;> rfl

theorem step_openParen :
    (ofFrames frames none).step .openParen = .ok (ofFrames (.paren :: frames) none) := rfl

theorem step_closeParen_of_expecting :
    (ofFrames frames none).step .closeParen = .error .missingOperandBeforeClose := rfl

theorem step_operator_of_expecting {symbol : Symbol} (h : UnaryOp.ofSymbol? symbol = none) :
    (ofFrames frames none).step (.operator symbol) = .error (.missingLeftOperand (.ofSymbol symbol)) := by
  cases symbol <;> first | contradiction | rfl

theorem step_number_of_operand (x : Float) :
    (ofFrames frames (some e)).step (.number x) = .error (.missingOperatorBeforeNumber x) := rfl

theorem step_openParen_of_operand :
    (ofFrames frames (some e)).step .openParen = .error .missingOperatorBeforeParen := rfl

theorem step_foreign (operand? : Option Expr) (text : String) :
    (ofFrames frames operand?).step (.foreign text) = .error (.notAToken text) := rfl

/-- An operator between operands closes the frames that come before it and takes what they make
for its left operand. -/
theorem step_operator (op : BinaryOp) :
    (ofFrames frames (some e)).step (.operator op.symbol) =
      let (l, frames) := close (·.leftFirst (.binary op)) e frames
      .ok (ofFrames (.binary l op :: frames) none) := by
  have hop : Operator.ofSymbol op.symbol false = .binary op := by cases op <;> rfl
  have hcheck : (ofFrames frames (some e)).check (.operator op.symbol) = .ok () := by
    cases op <;> rfl
  rw [step_eq, hcheck]
  simp only [advance, ofFrames, Option.isNone_some, hop, Option.toList_some, List.singleton_append,
    reduceWhile_ofFrames, bind, Except.bind]
  rfl

/-- A closing parenthesis closes all frames up to its mate. -/
theorem step_closeParen :
    (ofFrames frames (some e)).step .closeParen =
      match close (fun _ => true) e frames with
      | (e, _ :: frames) => .ok (ofFrames frames (some e))
      | (_, []) => .error .unmatchedClose := by
  have hcheck : (ofFrames frames (some e)).check .closeParen = .ok () := rfl
  have hholds := holds_close (fun _ => true) e frames
  rw [step_eq, hcheck]
  simp only [advance, ofFrames, Option.toList_some, List.singleton_append, reduceWhile_ofFrames,
    bind, Except.bind]
  generalize close (fun _ => true) e frames = result at hholds ⊢
  obtain ⟨e', frames'⟩ := result
  cases frames' with
  | nil => rfl
  | cons frame frames' =>
    rw [eq_paren_of_holds hholds]
    rfl

end Step

/-! ### The end -/

/-- Closes all frames; no parenthesis may be open. -/
theorem finish_operand (frames : List Frame) (e : Expr) :
    (ofFrames frames (some e)).finish =
      match close (fun _ => true) e frames with
      | (e, []) => .ok e
      | (_, _ :: _) => .error .unmatchedOpen := by
  have hdrain : drain (e :: frames.flatMap Frame.operands) (frames.map Frame.entry) =
      match close (fun _ => true) e frames with
      | (e, []) => .ok [e]
      | (_, _ :: _) => .error .unmatchedOpen := by
    induction frames generalizing e with
    | nil => rfl
    | cons frame frames ih =>
      rw [close, List.flatMap_cons, List.map_cons]
      cases hop : frame.operator? with
      | none =>
        cases eq_paren_of_operator? hop
        rfl
      | some op =>
        rw [entry_of_operator? hop, drain, apply_operands hop]
        exact ih _
  rw [finish, show (ofFrames frames (some e)).operands = e :: frames.flatMap Frame.operands from rfl,
    show (ofFrames frames (some e)).entries = frames.map Frame.entry from rfl, hdrain]
  generalize close (fun _ => true) e frames = result
  obtain ⟨e', _ | _⟩ := result <;> rfl

/-- How many operators between operands wait. -/
def joints : List Entry → Nat
  | [] => 0
  | .operator (.binary _) :: entries => joints entries + 1
  | _ :: entries => joints entries

theorem length_of_apply {op : Operator} {operands operands' : List Expr}
    (h : op.apply operands = .ok operands') :
    operands'.length + joints [.operator op] = operands.length := by
  match op, operands, h with
  | .unary _, _ :: _, h | .binary _, _ :: _ :: _, h =>
    cases h
    rfl

theorem joints_cons (entry : Entry) (entries : List Entry) :
    joints (entry :: entries) = joints [entry] + joints entries := by
  rcases entry with (_ | _) | _
  · exact (Nat.zero_add _).symm
  · exact Nat.add_comm ..
  · exact (Nat.zero_add _).symm

/-- Each operator between operands makes one operand of two. -/
theorem length_of_drain {operands operands' : List Expr} {entries : List Entry}
    (h : drain operands entries = .ok operands') :
    operands'.length + joints entries = operands.length := by
  induction entries generalizing operands with
  | nil =>
    cases h
    rfl
  | cons entry entries ih =>
    cases entry with
    | paren => contradiction
    | operator op =>
      rw [drain] at h
      cases happly : op.apply operands with
      | error error =>
        rw [happly] at h
        contradiction
      | ok rest =>
        rw [happly] at h
        have hrest := ih h
        have hop := length_of_apply happly
        rw [joints_cons]
        omega

theorem length_operands (frames : List Frame) :
    (frames.flatMap Frame.operands).length = joints (frames.map Frame.entry) := by
  induction frames with
  | nil => rfl
  | cons frame frames ih =>
    rw [List.flatMap_cons, List.length_append, List.map_cons, joints_cons, ih]
    cases frame <;> rfl

/-- While an operand is awaited there is no whole expression. -/
theorem finish_expecting (frames : List Frame) (e : Expr) : (ofFrames frames none).finish ≠ .ok e := by
  intro h
  rw [finish] at h
  cases hdrain : drain (ofFrames frames none).operands (ofFrames frames none).entries with
  | error error =>
    rw [hdrain] at h
    contradiction
  | ok operands =>
    have hlength := length_of_drain hdrain
    have hframes : (ofFrames frames none).operands.length = joints (ofFrames frames none).entries :=
      length_operands frames
    have hnil : operands = [] := List.eq_nil_of_length_eq_zero (by omega)
    rw [hdrain, hnil] at h
    contradiction

end Yard
end Calculator
