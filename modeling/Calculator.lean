import Calculator.Binary64.Rounding
import Calculator.Decimal.Layout
import Calculator.Decimal.Shortest
import Calculator.Numeral
import Calculator.Text.Blank
import Calculator.Text.Lines
import Calculator.Text.Quoted
import Calculator.Token.Literal
import Calculator.Token.Scan
import Calculator.Expr.Describe
import Calculator.Expr.Evaluate
import Calculator.Expr.Postorder
import Calculator.Expr.Print
import Calculator.Yard
import Calculator.Calculation
import Calculator.Session
import Calculator.Invocation
import Calculator.CommandLine
import Calculator.Main
import Calculator.Proofs.Binary64.Float
import Calculator.Proofs.Binary64.Magnitude
import Calculator.Proofs.Binary64.Nearest
import Calculator.Proofs.Binary64.Value
import Calculator.Proofs.Decimal.Value
import Calculator.Proofs.Decimal.Shortest
import Calculator.Proofs.Token.Literal
import Calculator.Proofs.Token.Lexeme
import Calculator.Proofs.Token.Munch
import Calculator.Proofs.Token.Rounding
import Calculator.Proofs.Token.Boundary
import Calculator.Proofs.Token.Stop
import Calculator.Proofs.Token.Concat
import Calculator.Proofs.Text.Lines
import Calculator.Proofs.Text.Quoted
import Calculator.Proofs.Text.Unquoted
import Calculator.Proofs.Decimal.Layout
import Calculator.Proofs.Decimal.Form
import Calculator.Proofs.Numeral
import Calculator.Proofs.Expr.Postorder
import Calculator.Proofs.Expr.Value
import Calculator.Proofs.Expr.Balance
import Calculator.Proofs.Grammar
import Calculator.Proofs.Yard.Step
import Calculator.Proofs.Yard.Frame
import Calculator.Proofs.Yard.Grammar
import Calculator.Proofs.Yard.Group
import Calculator.Proofs.Yard.Operand
import Calculator.Proofs.Yard.Counter
import Calculator.Proofs.Yard.Shortage
import Calculator.Proofs.Yard.Verdict
import Calculator.Proofs.Yard.Viable
import Calculator.Proofs.Yard.Stacks
import Calculator.Proofs.Yard.Unchecked
import Calculator.Proofs.Expr.Norm
import Calculator.Proofs.Expr.Tokens
import Calculator.Proofs.Expr.Print
import Calculator.Proofs.Expr.RoundTrip
import Calculator.Proofs.Numeral.ReadBack
import Calculator.Proofs.Numeral.Floating
import Calculator.Proofs.Expr.Paste
import Calculator.Proofs.Expr.Refused
import Calculator.Proofs.Calculation
import Calculator.Proofs.Session.Reply
import Calculator.Proofs.Session.Crash
import Calculator.Proofs.Session.Loop
import Calculator.Proofs.Session.LineFeeds
import Calculator.Proofs.Message
import Calculator.Proofs.CommandLine.Run
import Calculator.Proofs.CommandLine.Modes
import Calculator.Proofs.CommandLine.Log
import Calculator.Proofs.CommandLine.Blank
