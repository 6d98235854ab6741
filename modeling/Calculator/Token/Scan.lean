import Calculator.Text.Blank
import Calculator.Text.Quoted
import Calculator.Token
import Calculator.Token.Literal

/-! Cutting text into tokens.

`scan` takes tokens off the front of a text, skipping blanks around them, until
nothing is left or what is left begins with no token; it answers the tokens and
the unread rest. A text is a sequence of tokens when nothing stays unread, and
otherwise the error is the place where reading stopped. -/
namespace Calculator

namespace Token
open Text

/-- The token a text begins with, and the rest. -/
def read? : List Char → Option (Token × List Char)
  | [] => none
  | '(' :: cs => some (.openParen, cs)
  | ')' :: cs => some (.closeParen, cs)
  | c :: cs =>
    match Symbol.ofChar? c with
    | some symbol => some (.operator symbol, cs)
    | none => (Literal.read? (c :: cs)).map fun (l, rest) => (.number l.toDecimal.toFloat, rest)

theorem length_lt_of_read? {cs rest : List Char} {token : Token}
    (h : read? cs = some (token, rest)) : rest.length < cs.length := by
  unfold read? at h
  split at h
  · contradiction
  · cases h
    exact Nat.lt_succ_self _
  · cases h
    exact Nat.lt_succ_self _
  · split at h
    · cases h
      exact Nat.lt_succ_self _
    · simp only [Option.map_eq_some_iff, Prod.mk.injEq, Prod.exists] at h
      obtain ⟨l, r, hr, -, rfl⟩ := h
      exact Literal.length_lt_of_read? hr

def scan (cs : List Char) : List Token × List Char :=
  match _h : read? (skipBlanks cs) with
  | none => ([], skipBlanks cs)
  | some (token, rest) =>
    let (tokens, unread) := scan rest
    (token :: tokens, unread)
termination_by cs.length
decreasing_by exact Nat.lt_of_lt_of_le (length_lt_of_read? _h) (length_skipBlanks_le cs)

theorem scan_of_none {cs : List Char} (h : read? (skipBlanks cs) = none) :
    scan cs = ([], skipBlanks cs) := by
  rw [scan]
  split <;> simp_all

theorem scan_of_some {cs rest : List Char} {token : Token}
    (h : read? (skipBlanks cs) = some (token, rest)) :
    scan cs = (token :: (scan rest).1, (scan rest).2) := by
  rw [scan]
  split <;> simp_all

/-- Blanks at the front do not matter. -/
theorem scan_eq_of_skipBlanks {cs ds : List Char} (h : skipBlanks cs = skipBlanks ds) :
    scan cs = scan ds := by
  cases hread : read? (skipBlanks ds) with
  | none => rw [scan_of_none hread, scan_of_none (h ▸ hread), h]
  | some p => rw [scan_of_some hread, scan_of_some (h ▸ hread)]

end Token

/-- Where a text stopped being tokens: the characters before, and the text from there on. -/
structure LexError where
  position : Nat
  rest : String
deriving DecidableEq, Repr

def LexError.message (e : LexError) : String :=
  "unexpected input at position " ++ toString e.position ++ ": " ++ Text.quoted e.rest

/-- The tokens of a text up to its end or to the first place where none begins. -/
structure Reading where
  tokens : List Token
  error : Option LexError
deriving DecidableEq, Repr

def Reading.ofText (text : String) : Reading :=
  let (tokens, unread) := Token.scan text.toList
  { tokens
    error :=
      if unread = [] then none
      else some ⟨text.toList.length - unread.length, String.ofList unread⟩ }

/-- All tokens of a text. -/
def tokenize (text : String) : Except LexError (List Token) :=
  let reading := Reading.ofText text
  match reading.error with
  | none => .ok reading.tokens
  | some e => .error e

end Calculator
