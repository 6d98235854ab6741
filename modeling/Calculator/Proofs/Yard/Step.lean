import Calculator.Yard

/-! What a step does, and whether it may.

Whether a token may stand where it does (`check`) is one thing, and what becomes of the yard then
is another (`advance`), which makes sense wherever a token stands: whatever comes after it, an
operand or an operator, is told by the token alone. A step is the one and then the other
(`step_eq`), though it need not set what comes next at a parenthesis, since the check has just
looked at that. -/
namespace Calculator.Yard

/-- Operands and operators have to alternate: whether this token may come next. -/
def check (y : Yard) : Token → Except Malformed Unit
  | .number x => if y.expecting then .ok () else .error (.missingOperatorBeforeNumber x)
  | .operator symbol =>
    match Operator.ofSymbol symbol y.expecting with
    | .unary _ => .ok ()
    | .binary op => if y.expecting then .error (.missingLeftOperand op) else .ok ()
  | .openParen => if y.expecting then .ok () else .error .missingOperatorBeforeParen
  | .closeParen => if y.expecting then .error .missingOperandBeforeClose else .ok ()
  | .foreign _ => .ok ()

/-- Takes a token in. -/
def advance (y : Yard) : Token → Except Malformed Yard
  | .number x => .ok ⟨.constant x :: y.operands, y.entries, false⟩
  | .operator symbol =>
    match Operator.ofSymbol symbol y.expecting with
    | .unary op => .ok ⟨y.operands, .operator (.unary op) :: y.entries, true⟩
    | .binary op => do
      let (operands, entries) ← reduceWhile (·.leftFirst (.binary op)) y.operands y.entries
      .ok ⟨operands, .operator (.binary op) :: entries, true⟩
  | .openParen => .ok ⟨y.operands, .paren :: y.entries, true⟩
  | .closeParen => do
    let (operands, entries) ← reduceWhile (fun _ => true) y.operands y.entries
    match entries with
    | .paren :: entries => .ok ⟨operands, entries, false⟩
    | _ => .error .unmatchedClose
  | .foreign text => .error (.notAToken text)

/-- **A step is a check and then what the token does anywhere.** -/
theorem step_eq (y : Yard) (token : Token) :
    y.step token = (do y.check token; y.advance token) := by
  obtain ⟨operands, entries, expecting⟩ := y
  cases token with
  | number x => cases expecting <;> rfl
  | operator symbol =>
    rw [step, check, advance]
    cases Operator.ofSymbol symbol expecting with
    | unary op => rfl
    | binary op => cases expecting <;> rfl
  | openParen => cases expecting <;> rfl
  | closeParen => cases expecting <;> rfl
  | foreign text => rfl

end Calculator.Yard
