import Calculator.Numeral
import Calculator.Operator
import Calculator.Text.Quoted

/-! What can be wrong with a list of tokens. -/
namespace Calculator

inductive Malformed where
  | missingOperatorBeforeNumber (value : Float)
  | missingOperatorBeforeParen
  | missingLeftOperand (op : BinaryOp)
  | missingOperandBeforeClose
  | unmatchedClose
  | unmatchedOpen
  /-- An operator was to be applied and there were fewer operands than it takes. -/
  | missingOperand (op : Operator)
  | notAToken (text : String)
  /-- Another number of expressions than one was left in the end. -/
  | expectedOne (found : Nat)
deriving DecidableEq, Repr

def Malformed.message : Malformed → String
  | .missingOperatorBeforeNumber value => "missing operator before " ++ Numeral.floating value
  | .missingOperatorBeforeParen => "missing operator before '('"
  | .missingLeftOperand op => (Operator.binary op).text ++ " is missing its left operand"
  | .missingOperandBeforeClose => "missing operand before ')'"
  | .unmatchedClose => "unmatched ')'"
  | .unmatchedOpen => "unmatched '('"
  | .missingOperand op => op.text ++ " is missing an operand"
  | .notAToken text => "not a token: " ++ Text.quoted text
  | .expectedOne found => "expected one expression, found " ++ toString found

end Calculator
