/-! Lines of text. -/
namespace Calculator.Text

/-- Cuts a text after each line feed. Every line keeps its line feed; the last may have none. -/
def lines : List Char → List (List Char)
  | [] => []
  | c :: cs =>
    if c = '\n' then [c] :: lines cs
    else match lines cs with
      | [] => [[c]]
      | line :: rest => (c :: line) :: rest

/-- The next line of a text and the rest: up to a line feed, or all there is. -/
def readLine : List Char → List Char × List Char
  | [] => ([], [])
  | c :: cs =>
    if c = '\n' then ([c], cs)
    else ((c :: (readLine cs).1), (readLine cs).2)

/-- Line ends as line feeds: a carriage return is one too, together with a line feed after it. -/
def unifyLineEnds : List Char → List Char
  | [] => []
  | '\r' :: '\n' :: cs => '\n' :: unifyLineEnds cs
  | '\r' :: cs => '\n' :: unifyLineEnds cs
  | c :: cs => c :: unifyLineEnds cs

theorem flatten_lines (cs : List Char) : (lines cs).flatten = cs := by
  induction cs with
  | nil => rfl
  | cons c cs ih =>
    unfold lines
    split
    · simp [ih]
    · split
      · next h => simp_all
      · next h => simpa [h] using ih

theorem length_readLine_le (cs : List Char) : (readLine cs).2.length ≤ cs.length := by
  induction cs with
  | nil => exact Nat.le_refl _
  | cons c cs ih =>
    unfold readLine
    split
    · exact Nat.le_succ _
    · exact Nat.le_succ_of_le ih

theorem length_readLine_lt (c : Char) (cs : List Char) :
    (readLine (c :: cs)).2.length < (c :: cs).length := by
  unfold readLine
  split
  · exact Nat.lt_succ_self _
  · exact Nat.lt_succ_of_le (length_readLine_le cs)

end Calculator.Text
