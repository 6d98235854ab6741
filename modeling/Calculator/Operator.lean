/-! Operators and how tightly they bind.

A symbol is what stands in the text. Where an operand is awaited `+` and `-` are
signs; everywhere else a symbol joins two operands. While an expression is being
read its operators wait in entries, together with the open parentheses. -/
namespace Calculator

inductive Symbol where
  | plus | minus | times | divide | power
deriving DecidableEq, Repr

inductive UnaryOp where
  | plus | minus
deriving DecidableEq, Repr

inductive BinaryOp where
  | add | subtract | multiply | divide | power
deriving DecidableEq, Repr

inductive Operator where
  | unary (op : UnaryOp)
  | binary (op : BinaryOp)
deriving DecidableEq, Repr

inductive Associativity where
  | left | right
deriving DecidableEq, Repr

/-! ### Symbols -/

def Symbol.toChar : Symbol → Char
  | .plus => '+'
  | .minus => '-'
  | .times => '*'
  | .divide => '/'
  | .power => '^'

def Symbol.ofChar? : Char → Option Symbol
  | '+' => some .plus
  | '-' => some .minus
  | '*' => some .times
  | '/' => some .divide
  | '^' => some .power
  | _ => none

def UnaryOp.symbol : UnaryOp → Symbol
  | .plus => .plus
  | .minus => .minus

def BinaryOp.symbol : BinaryOp → Symbol
  | .add => .plus
  | .subtract => .minus
  | .multiply => .times
  | .divide => .divide
  | .power => .power

/-- The sign a symbol stands for, if it can be one. -/
def UnaryOp.ofSymbol? : Symbol → Option UnaryOp
  | .plus => some .plus
  | .minus => some .minus
  | _ => none

def BinaryOp.ofSymbol : Symbol → BinaryOp
  | .plus => .add
  | .minus => .subtract
  | .times => .multiply
  | .divide => .divide
  | .power => .power

@[simp] theorem Symbol.ofChar?_toChar (s : Symbol) : ofChar? s.toChar = some s := by
  cases s <;> rfl

@[simp] theorem BinaryOp.symbol_ofSymbol (s : Symbol) : (ofSymbol s).symbol = s := by
  cases s <;> rfl

@[simp] theorem BinaryOp.ofSymbol_symbol (op : BinaryOp) : ofSymbol op.symbol = op := by
  cases op <;> rfl

namespace Operator

/-- The operator a symbol stands for: a sign only where an operand is awaited. -/
def ofSymbol (symbol : Symbol) (expecting : Bool) : Operator :=
  match expecting, UnaryOp.ofSymbol? symbol with
  | true, some op => .unary op
  | _, _ => .binary (.ofSymbol symbol)

def symbol : Operator → Symbol
  | .unary op => op.symbol
  | .binary op => op.symbol

/-! ### Binding -/

/-- The operator of the higher precedence binds tighter. -/
def precedence : Operator → Nat
  | .binary .add | .binary .subtract => 1
  | .binary .multiply | .binary .divide => 2
  | .binary .power => 3
  | .unary _ => 254

def associativity : Operator → Associativity
  | .binary .power => .right
  | _ => .left

def arity : Operator → Nat
  | .unary _ => 1
  | .binary _ => 2

/-- The operator as messages name it; a sign is marked with a `u`. -/
def text : Operator → String
  | .unary op => "op(u'" ++ String.singleton op.symbol.toChar ++ "')"
  | .binary op => "op('" ++ String.singleton op.symbol.toChar ++ "')"

@[simp] theorem symbol_ofSymbol (s : Symbol) (expecting : Bool) :
    (ofSymbol s expecting).symbol = s := by
  cases s <;> cases expecting <;> rfl

end Operator

/-- What waits for its turn while an expression is read. -/
inductive Entry where
  | operator (op : Operator)
  | paren
deriving DecidableEq, Repr

namespace Entry

/-- An open parenthesis binds looser than any operator. -/
def precedence : Entry → Nat
  | .operator op => op.precedence
  | .paren => 0

def associativity : Entry → Associativity
  | .operator op => op.associativity
  | .paren => .left

def text : Entry → String
  | .operator op => op.text
  | .paren => "op('(')"

/-- Whether `a`, standing to the left, takes the operand between it and `b`. -/
def leftFirst (a b : Entry) : Bool :=
  b.precedence < a.precedence || (a.precedence == b.precedence && b.associativity == .left)

end Entry

/-- Whether `a`, standing to the left, takes the operand between it and `b`. -/
def Operator.leftFirst (a b : Operator) : Bool :=
  Entry.leftFirst (.operator a) (.operator b)

end Calculator
