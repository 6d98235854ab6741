import Calculator.Text.Printable

/-! Quoted text: how a message shows a piece of input.

The text stands between two marks, and every character in it that could be taken
for a mark, break the line or not be seen is escaped, so a quoted text is one line
and shows exactly what it quotes. -/
namespace Calculator.Text

def apostrophe : Char := '\x27'
def doubleQuote : Char := '\x22'
def backslash : Char := '\x5c'

/-- Apostrophes enclose the text, or double quotes if it holds apostrophes and no double quote. -/
def quotationMark (text : List Char) : Char :=
  if apostrophe ∈ text ∧ doubleQuote ∉ text then doubleQuote else apostrophe

def hexDigits (width n : Nat) : List Char :=
  (Nat.toDigits 16 n).leftpad width '0'

/-- What stands for a character between two marks. -/
def escape (mark c : Char) : List Char :=
  if c = mark ∨ c = backslash then [backslash, c]
  else if c = '\n' then [backslash, 'n']
  else if c = '\r' then [backslash, 'r']
  else if c = '\t' then [backslash, 't']
  else if isPrintable c then [c]
  else if c.toNat ≤ 0xff then backslash :: 'x' :: hexDigits 2 c.toNat
  else if c.toNat ≤ 0xffff then backslash :: 'u' :: hexDigits 4 c.toNat
  else backslash :: 'U' :: hexDigits 8 c.toNat

def quote (text : List Char) : List Char :=
  let mark := quotationMark text
  mark :: text.flatMap (escape mark) ++ [mark]

def quoted (text : String) : String :=
  String.ofList (quote text.toList)

@[simp] theorem toList_quoted (text : String) : (quoted text).toList = quote text.toList :=
  String.toList_ofList

end Calculator.Text
