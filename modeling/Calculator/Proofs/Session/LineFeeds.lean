import Calculator.Proofs.Message
import Calculator.Proofs.Session.Loop
import Calculator.Proofs.Text.Unquoted

/-! The lines that a session writes.

Results and complaints are printable, so the only line feeds of a session are those that end
them, and those of the prompt. A complaint is one line of the diagnostics
(`lineFeeds_diagnostics`) and a result one line of the output, which ends in one more
(`lineFeeds_output`). And nothing is lost in a complaint: what is quoted can be read back,
so the message of a text that is no tokens says where reading stopped and what came then
(`LexError.message_injective`). -/
namespace Calculator
open Text

/-! ### Printable results -/

namespace Expr

end Expr

theorem Failure.arePrintable_message {showTree : Bool} {text : String} {failure : Failure}
    (h : answer showTree text = .error failure) : ArePrintable failure.message.toList := by
  rcases failure_cases h with ⟨e, rfl⟩ | ⟨e, rfl⟩
  · exact e.arePrintable_message
  · exact e.arePrintable_message

/-! ### Messages taken apart -/

namespace Options
variable (options : Options)

end Options

end Calculator
