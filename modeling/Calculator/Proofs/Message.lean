import Calculator.Calculation
import Calculator.Proofs.Decimal.Layout
import Calculator.Proofs.Text.Quoted

/-! Messages are plain text.

Whatever a message quotes or names, all its characters are printable: numerals are made of a few
characters, operators are named by theirs, and quoted texts are escaped. So a message never
breaks the line that it stands on, nor does the description of a tree. A number in a message
ends where its digits do (`toString_append_cancel`), so messages can be taken apart. -/
namespace Calculator
open Text

/-! ### Numerals -/

theorem Literal.AreDigits.arePrintable {cs : List Char} (h : AreDigits cs) : ArePrintable cs :=
  fun c hc => isPrintable_of_isDigit (h c hc)

namespace Decimal
open Literal

theorem arePrintable_zeros (n : Nat) : ArePrintable (List.replicate n '0') :=
  (areDigits_replicate_zero n).arePrintable

theorem arePrintable_positional {digits : List Char} (h : ArePrintable digits) (leading : Int) :
    ArePrintable (positional digits leading) := by
  cases leading with
  | ofNat e =>
    have hwhole : ArePrintable ((digits.take (e + 1)).rightpad (e + 1) '0') :=
      arePrintable_append.2 ⟨fun c hc => h c (List.mem_of_mem_take hc), arePrintable_zeros _⟩
    have hfraction :
        ArePrintable (if digits.drop (e + 1) = [] then ['0'] else digits.drop (e + 1)) := by
      split
      · exact arePrintable_zeros 1
      · exact fun c hc => h c (List.mem_of_mem_drop hc)
    have hpoint : ArePrintable ['.'] := arePrintable_of_ascii (by decide)
    exact arePrintable_append.2 ⟨hwhole, arePrintable_append.2 ⟨hpoint, hfraction⟩⟩
  | negSucc e =>
    have hbegin : ArePrintable ['0', '.'] := arePrintable_of_ascii (by decide)
    exact arePrintable_append.2 ⟨hbegin, arePrintable_append.2 ⟨arePrintable_zeros e, h⟩⟩

theorem arePrintable_scientific {digits : List Char} (h : ArePrintable digits) (exponentDigits : Nat)
    (leading : Int) : ArePrintable (scientific exponentDigits digits leading) := by
  have hfraction :
      ArePrintable (if digits.drop 1 = [] then [] else '.' :: digits.drop 1) := by
    split
    · exact arePrintable_nil
    · have hpoint : ArePrintable ['.'] := arePrintable_of_ascii (by decide)
      exact arePrintable_append.2 ⟨hpoint, fun c hc => h c (List.mem_of_mem_drop hc)⟩
  have hsign : ArePrintable ['e', if leading < 0 then '-' else '+'] := by
    split <;> exact arePrintable_of_ascii (by decide)
  have hexponent : ArePrintable ((Nat.toDigits 10 leading.natAbs).leftpad exponentDigits '0') :=
    arePrintable_append.2 ⟨arePrintable_zeros _, (areDigits_toDigits leading.natAbs).arePrintable⟩
  have hwhole : ArePrintable (digits.take 1) := fun c hc => h c (List.mem_of_mem_take hc)
  exact arePrintable_append.2
    ⟨arePrintable_append.2 ⟨hwhole, hfraction⟩, arePrintable_append.2 ⟨hsign, hexponent⟩⟩

theorem arePrintable_write (layout : Layout) (d : Decimal) : ArePrintable (layout.write d) := by
  have hdigits := d.areDigits_significantDigits.arePrintable
  unfold Layout.write
  split
  · exact arePrintable_positional hdigits _
  · exact arePrintable_scientific hdigits _ _

end Decimal

namespace Numeral

theorem arePrintable_sign (negative : Bool) : ArePrintable (sign negative).toList := by
  cases negative <;> exact arePrintable_of_ascii (by decide)

theorem arePrintable_floating (x : Float) : ArePrintable (floating x).toList := by
  unfold floating
  split
  · exact arePrintable_of_ascii (by decide)
  · exact arePrintable_concat (arePrintable_sign _) (arePrintable_of_ascii (by decide))
  · refine arePrintable_concat (arePrintable_sign _) ?_
    rw [String.toList_ofList]
    exact Decimal.arePrintable_write _ _

end Numeral

/-! ### Messages -/

theorem arePrintable_quoted (text : String) : ArePrintable (quoted text).toList := by
  rw [toList_quoted]
  exact arePrintable_quote text.toList

theorem Operator.arePrintable_text (op : Operator) : ArePrintable op.text.toList := by
  rcases op with op | op <;> cases op <;> exact arePrintable_of_ascii (by decide)

theorem LexError.arePrintable_message (e : LexError) : ArePrintable e.message.toList :=
  arePrintable_concat
    (arePrintable_concat
      (arePrintable_concat (arePrintable_of_ascii (by decide)) (arePrintable_toString e.position))
      (arePrintable_of_ascii (by decide)))
    (arePrintable_quoted e.rest)

theorem Malformed.arePrintable_message (e : Malformed) : ArePrintable e.message.toList := by
  cases e with
  | missingOperatorBeforeNumber value =>
    exact arePrintable_concat (arePrintable_of_ascii (by decide))
      (Numeral.arePrintable_floating value)
  | missingOperatorBeforeParen | missingOperandBeforeClose | unmatchedClose | unmatchedOpen =>
    exact arePrintable_of_ascii (by decide)
  | missingLeftOperand op =>
    exact arePrintable_concat (Operator.arePrintable_text _) (arePrintable_of_ascii (by decide))
  | missingOperand op =>
    exact arePrintable_concat (Operator.arePrintable_text op) (arePrintable_of_ascii (by decide))
  | notAToken text =>
    exact arePrintable_concat (arePrintable_of_ascii (by decide)) (arePrintable_quoted text)
  | expectedOne found =>
    exact arePrintable_concat (arePrintable_of_ascii (by decide)) (arePrintable_toString found)

/-! ### Messages taken apart -/

theorem UnaryOp.arePrintable_describe (op : UnaryOp) : ArePrintable op.describe.toList := by
  cases op <;> exact arePrintable_of_ascii (by decide)

theorem BinaryOp.arePrintable_describe (op : BinaryOp) : ArePrintable op.describe.toList := by
  cases op <;> exact arePrintable_of_ascii (by decide)

theorem Expr.arePrintable_describe (e : Expr) : ArePrintable e.describe.toList := by
  have hclose : ArePrintable ")".toList := arePrintable_of_ascii (by decide)
  induction e with
  | constant x =>
    have hopen : ArePrintable "Constant(value=".toList := arePrintable_of_ascii (by decide)
    exact arePrintable_concat (arePrintable_concat hopen (Numeral.arePrintable_floating x)) hclose
  | unary op e ih =>
    have hopen : ArePrintable "UnaryOperator(kind=".toList := arePrintable_of_ascii (by decide)
    have hoperand : ArePrintable ", operand=".toList := arePrintable_of_ascii (by decide)
    have hkind := arePrintable_concat (arePrintable_concat hopen op.arePrintable_describe) hoperand
    exact arePrintable_concat (arePrintable_concat hkind ih) hclose
  | binary op l r ihl ihr =>
    have hopen : ArePrintable "BinaryOperator(kind=".toList := arePrintable_of_ascii (by decide)
    have hleft : ArePrintable ", left=".toList := arePrintable_of_ascii (by decide)
    have hright : ArePrintable ", right=".toList := arePrintable_of_ascii (by decide)
    have hkind := arePrintable_concat (arePrintable_concat hopen op.arePrintable_describe) hleft
    have hboth := arePrintable_concat (arePrintable_concat hkind ihl) hright
    exact arePrintable_concat (arePrintable_concat hboth ihr) hclose
  | foreign text => exact arePrintable_quoted text

end Calculator
