import Calculator.Operator

/-! Tokens: the words of an expression. -/
namespace Calculator

inductive Token where
  | number (value : Float)
  | operator (symbol : Symbol)
  | openParen
  | closeParen
  /-- Something handed in for a token that is none, by its text. -/
  | foreign (text : String)
deriving DecidableEq, Repr

namespace Token

def IsGenuine : Token → Prop
  | .foreign _ => False
  | _ => True

instance : (t : Token) → Decidable t.IsGenuine
  | .number _ | .operator _ | .openParen | .closeParen => .isTrue trivial
  | .foreign _ => .isFalse id

end Token
end Calculator
