import Calculator.Proofs.Yard.Frame

/-! A counter beside the yard.

To say what is wrong with a list of tokens one need not build anything. A counter scans
the tokens and keeps only whether an operand has to come next and how many parentheses
are open (`Counter`). It complains of the first token that may not stand where it does,
and a yard that reads the same tokens refuses that token for that reason
(`run_of_complaint`). A list without a complaint is taken in whole, and yard and counter
agree all the way (`run_of_no_complaint`). If an operand came last, the number of open
parentheses then decides between a tree and a complaint (`finish_of_operand`). -/
namespace Calculator
open Calculator.Frame

structure Counter where
  /-- Whether an operand has to come next. -/
  expecting : Bool
  /-- How many parentheses are open. -/
  depth : Int
deriving DecidableEq, Repr

namespace Counter

def start : Counter := ⟨true, 0⟩

def next (c : Counter) : Token → Counter
  | .number _ => ⟨false, c.depth⟩
  | .operator _ => ⟨true, c.depth⟩
  | .openParen => ⟨true, c.depth + 1⟩
  | .closeParen => ⟨false, c.depth - 1⟩
  | .foreign _ => c

def run (c : Counter) (tokens : List Token) : Counter :=
  tokens.foldl next c

/-- Why a token may not stand here, if it may not. -/
def complaint? (c : Counter) : Token → Option Malformed
  | .number x => if c.expecting then none else some (.missingOperatorBeforeNumber x)
  | .operator symbol =>
    if c.expecting ∧ UnaryOp.ofSymbol? symbol = none then
      some (.missingLeftOperand (.ofSymbol symbol))
    else none
  | .openParen => if c.expecting then none else some .missingOperatorBeforeParen
  | .closeParen =>
    if c.expecting then some .missingOperandBeforeClose
    else if c.depth = 0 then some .unmatchedClose
    else none
  | .foreign text => some (.notAToken text)

/-- What is said about a token that may not stand here. -/
def refusal (c : Counter) : Token → String
  | .number x => "missing operator before " ++ Numeral.floating x
  | .operator symbol =>
    "op('" ++ String.singleton symbol.toChar ++ "')" ++ " is missing its left operand"
  | .openParen => "missing operator before '('"
  | .closeParen => if c.expecting then "missing operand before ')'" else "unmatched ')'"
  | .foreign text => "not a token: " ++ Text.quoted text

/-- The complaint about the first token that may not stand where it does. -/
def firstComplaint? (c : Counter) : List Token → Option Malformed
  | [] => none
  | token :: tokens => (c.complaint? token).or ((c.next token).firstComplaint? tokens)

theorem run_append (c : Counter) (before after : List Token) :
    c.run (before ++ after) = (c.run before).run after :=
  List.foldl_append

/-- What follows a token that may not stand where it does plays no part. -/
theorem firstComplaint?_append (c : Counter) (before after : List Token) :
    c.firstComplaint? (before ++ after) =
      (c.firstComplaint? before).or ((c.run before).firstComplaint? after) := by
  induction before generalizing c with
  | nil => rfl
  | cons token before ih =>
    rw [List.cons_append, firstComplaint?, ih, firstComplaint?, Option.or_assoc]
    rfl

theorem message_of_complaint {c : Counter} {token : Token} {error : Malformed}
    (h : c.complaint? token = some error) : error.message = c.refusal token := by
  cases token with
  | number x =>
    simp only [complaint?, Option.ite_none_left_eq_some, Option.some.injEq] at h
    obtain ⟨-, rfl⟩ := h
    rfl
  | operator symbol =>
    simp only [complaint?, Option.ite_none_right_eq_some, Option.some.injEq] at h
    obtain ⟨-, rfl⟩ := h
    cases symbol <;> rfl
  | openParen =>
    simp only [complaint?, Option.ite_none_left_eq_some, Option.some.injEq] at h
    obtain ⟨-, rfl⟩ := h
    rfl
  | closeParen =>
    obtain ⟨expecting, depth⟩ := c
    cases expecting with
    | true =>
      cases h
      rfl
    | false =>
      simp only [complaint?, Bool.false_eq_true, if_false, Option.ite_none_right_eq_some,
        Option.some.injEq] at h
      obtain ⟨-, rfl⟩ := h
      rfl
  | foreign text =>
    cases h
    rfl

/-- It is never an operator short of operands. -/
theorem complaint?_ne_missingOperand (c : Counter) (token : Token) (op : Operator) :
    c.complaint? token ≠ some (.missingOperand op) := by
  cases token <;> grind [complaint?]

/-- It is never the number of expressions. -/
theorem complaint?_ne_expectedOne (c : Counter) (token : Token) (found : Nat) :
    c.complaint? token ≠ some (.expectedOne found) := by
  cases token <;> grind [complaint?]

theorem firstComplaint?_ne_expectedOne (c : Counter) (tokens : List Token) (found : Nat) :
    c.firstComplaint? tokens ≠ some (.expectedOne found) := by
  induction tokens generalizing c with
  | nil => simp [firstComplaint?]
  | cons token tokens ih =>
    rw [firstComplaint?, ne_eq, Option.or_eq_some_iff]
    rintro (h | ⟨-, h⟩)
    · exact c.complaint?_ne_expectedOne token found h
    · exact ih _ h

end Counter

/-! ### Parentheses that are open -/

theorem Frame.count_paren_close (p : Operator → Bool) (e : Expr) (frames : List Frame) :
    (close p e frames).2.count .paren = frames.count .paren := by
  induction frames generalizing e with
  | nil => rfl
  | cons frame frames ih =>
    by_cases h : Holds p (frame :: frames)
    · rw [close_of_holds h]
    · obtain ⟨op, hop, hp⟩ : ∃ op, frame.operator? = some op ∧ p op = true := by
        simpa [Holds] using h
      have hframe : frame ≠ .paren := by
        rintro rfl
        contradiction
      rw [close_cons_of_acts hop hp, ih, List.count_cons_of_ne hframe]

/-- Closing all that can be closed stops at a parenthesis if one is open, and at nothing else. -/
theorem Frame.close_all_cases (e : Expr) (frames : List Frame) :
    (frames.count .paren = 0 ∧ ∃ e', close (fun _ => true) e frames = (e', [])) ∨
      ∃ e' outer, close (fun _ => true) e frames = (e', .paren :: outer) ∧
        frames.count .paren = outer.count .paren + 1 := by
  have hholds := holds_close (fun _ => true) e frames
  have hcount := count_paren_close (fun _ => true) e frames
  generalize close (fun _ => true) e frames = result at hholds hcount
  obtain ⟨e', _ | ⟨frame, outer⟩⟩ := result
  · exact .inl ⟨hcount.symm, e', rfl⟩
  · cases eq_paren_of_holds hholds
    rw [List.count_cons_self] at hcount
    exact .inr ⟨e', outer, rfl, hcount.symm⟩

/-! ### The yard agrees -/

/-- The counter says of a yard what it says of itself. -/
def Counter.Agrees (c : Counter) (y : Yard) : Prop :=
  ∃ frames operand?, y = .ofFrames frames operand? ∧ c.expecting = operand?.isNone ∧
    c.depth = frames.count .paren

namespace Counter.Agrees
variable {c : Counter} {y : Yard}

theorem start : Counter.start.Agrees Yard.start :=
  ⟨[], none, rfl, rfl, rfl⟩

theorem expecting_eq (h : c.Agrees y) : c.expecting = y.expecting := by
  obtain ⟨frames, operand?, rfl, hexpecting, -⟩ := h
  exact hexpecting

theorem depth_nonneg (h : c.Agrees y) : 0 ≤ c.depth := by
  obtain ⟨frames, operand?, -, -, hdepth⟩ := h
  omega

theorem step_of_complaint (h : c.Agrees y) {token : Token} {error : Malformed}
    (hcomplaint : c.complaint? token = some error) : y.step token = .error error := by
  obtain ⟨frames, operand?, rfl, hexpecting, hdepth⟩ := h
  cases token with
  | number x => cases operand? <;> simp_all [complaint?, Yard.step_number_of_operand]
  | operator symbol =>
    cases operand? with
    | none =>
      cases hsymbol : UnaryOp.ofSymbol? symbol with
      | none => simp_all [complaint?, Yard.step_operator_of_expecting frames hsymbol]
      | some op => simp_all [complaint?]
    | some e => simp_all [complaint?]
  | openParen => cases operand? <;> simp_all [complaint?, Yard.step_openParen_of_operand]
  | closeParen =>
    cases operand? with
    | none => simp_all [complaint?, Yard.step_closeParen_of_expecting]
    | some e =>
      rw [Yard.step_closeParen]
      rcases close_all_cases e frames with ⟨hcount, e', hclose⟩ | ⟨e', outer, hclose, hcount⟩
      · simp_all [complaint?]
      · have : c.depth ≠ 0 := by omega
        simp_all [complaint?]
  | foreign text =>
    cases hcomplaint
    exact Yard.step_foreign frames operand? text

theorem step_of_no_complaint (h : c.Agrees y) {token : Token}
    (hcomplaint : c.complaint? token = none) :
    ∃ y', y.step token = .ok y' ∧ (c.next token).Agrees y' := by
  obtain ⟨frames, operand?, rfl, hexpecting, hdepth⟩ := h
  cases token with
  | number x =>
    cases operand? with
    | none => exact ⟨_, Yard.step_number frames x, frames, _, rfl, rfl, hdepth⟩
    | some e => simp_all [complaint?]
  | operator symbol =>
    cases operand? with
    | none =>
      cases hsymbol : UnaryOp.ofSymbol? symbol with
      | none => simp_all [complaint?]
      | some op =>
        obtain rfl : op.symbol = symbol := by cases symbol <;> cases hsymbol <;> rfl
        refine ⟨_, Yard.step_sign frames op, .unary op :: frames, none, rfl, rfl, ?_⟩
        rw [List.count_cons_of_ne (by simp)]
        exact hdepth
    | some e =>
      obtain ⟨op, rfl⟩ : ∃ op : BinaryOp, symbol = op.symbol := ⟨.ofSymbol symbol, by simp⟩
      refine ⟨_, Yard.step_operator frames e op, _, none, rfl, rfl, ?_⟩
      rw [List.count_cons_of_ne (by simp), count_paren_close]
      exact hdepth
  | openParen =>
    cases operand? with
    | none =>
      refine ⟨_, Yard.step_openParen frames, .paren :: frames, none, rfl, rfl, ?_⟩
      rw [List.count_cons_self, next, hdepth]
      rfl
    | some e => simp_all [complaint?]
  | closeParen =>
    cases operand? with
    | none => simp_all [complaint?]
    | some e =>
      rw [Yard.step_closeParen]
      rcases close_all_cases e frames with ⟨hcount, e', hclose⟩ | ⟨e', outer, hclose, hcount⟩
      · simp_all [complaint?]
      · rw [hclose]
        refine ⟨_, rfl, outer, some e', rfl, rfl, ?_⟩
        show c.depth - 1 = _
        omega
  | foreign text => contradiction

theorem run_of_complaint (h : c.Agrees y) {tokens : List Token} {error : Malformed}
    (hcomplaint : c.firstComplaint? tokens = some error) : y.run tokens = .error error := by
  induction tokens generalizing c y with
  | nil => contradiction
  | cons token tokens ih =>
    rw [Yard.run_cons]
    rw [firstComplaint?, Option.or_eq_some_iff] at hcomplaint
    rcases hcomplaint with hcomplaint | ⟨hnone, hcomplaint⟩
    · rw [h.step_of_complaint hcomplaint]
      rfl
    · obtain ⟨y', hstep, h'⟩ := h.step_of_no_complaint hnone
      rw [hstep]
      exact ih h' hcomplaint

theorem run_of_no_complaint (h : c.Agrees y) {tokens : List Token}
    (hcomplaint : c.firstComplaint? tokens = none) :
    ∃ y', y.run tokens = .ok y' ∧ (c.run tokens).Agrees y' := by
  induction tokens generalizing c y with
  | nil => exact ⟨y, rfl, h⟩
  | cons token tokens ih =>
    rw [firstComplaint?, Option.or_eq_none_iff] at hcomplaint
    obtain ⟨y', hstep, h'⟩ := h.step_of_no_complaint hcomplaint.1
    rw [Yard.run_cons, hstep]
    exact ih h' hcomplaint.2

/-- After an operand there is a tree if no parenthesis is open, and else that is the complaint. -/
theorem finish_of_operand (h : c.Agrees y) (hoperand : c.expecting = false) :
    c.depth = 0 ∧ (∃ e, y.finish = .ok e) ∨ 0 < c.depth ∧ y.finish = .error .unmatchedOpen := by
  obtain ⟨frames, operand?, rfl, hexpecting, hdepth⟩ := h
  cases operand? with
  | none => simp_all
  | some e =>
    rw [Yard.finish_operand]
    rcases close_all_cases e frames with ⟨hcount, e', hclose⟩ | ⟨e', outer, hclose, hcount⟩
    · left
      rw [hclose]
      exact ⟨by omega, e', rfl⟩
    · right
      rw [hclose]
      exact ⟨by omega, rfl⟩

theorem finish_ne_ok (h : c.Agrees y) (hexpecting : c.expecting = true) (e : Expr) :
    y.finish ≠ .ok e := by
  obtain ⟨frames, operand?, rfl, hoperand, -⟩ := h
  cases operand? with
  | none => exact Yard.finish_expecting frames e
  | some e => simp_all

end Counter.Agrees

/-! ### Lists without complaint -/

theorem Expr.ofTokens_of_run {tokens : List Token} {y : Yard} (h : Yard.start.run tokens = .ok y) :
    ofTokens tokens = y.finish := by
  rw [ofTokens, h]
  rfl

theorem Expr.ofTokens_of_complaint {tokens : List Token} {error : Malformed}
    (h : Counter.start.firstComplaint? tokens = some error) : ofTokens tokens = .error error := by
  rw [ofTokens, Counter.Agrees.start.run_of_complaint h]
  rfl

namespace Counter
variable {tokens : List Token}

theorem ofTokens_of_operand (hcomplaint : start.firstComplaint? tokens = none)
    (hoperand : (start.run tokens).expecting = false) :
    (start.run tokens).depth = 0 ∧ (∃ e, Expr.ofTokens tokens = .ok e) ∨
      0 < (start.run tokens).depth ∧ Expr.ofTokens tokens = .error .unmatchedOpen := by
  obtain ⟨y, hrun, hagrees⟩ := Agrees.start.run_of_no_complaint hcomplaint
  rw [Expr.ofTokens_of_run hrun]
  exact hagrees.finish_of_operand hoperand

theorem exists_ofTokens_iff (hcomplaint : start.firstComplaint? tokens = none) :
    (∃ e, Expr.ofTokens tokens = .ok e) ↔
      (start.run tokens).expecting = false ∧ (start.run tokens).depth = 0 := by
  obtain ⟨y, hrun, hagrees⟩ := Agrees.start.run_of_no_complaint hcomplaint
  constructor
  · rintro ⟨e, he⟩
    rw [Expr.ofTokens_of_run hrun] at he
    cases hexpecting : (start.run tokens).expecting with
    | true => exact absurd he (hagrees.finish_ne_ok hexpecting e)
    | false =>
      rcases hagrees.finish_of_operand hexpecting with ⟨hdepth, -⟩ | ⟨-, herror⟩
      · exact ⟨rfl, hdepth⟩
      · rw [herror] at he
        contradiction
  · rintro ⟨hexpecting, hdepth⟩
    rcases ofTokens_of_operand hcomplaint hexpecting with ⟨-, htree⟩ | ⟨hpos, -⟩
    · exact htree
    · omega

end Counter
end Calculator
