import Calculator.Text.Lines

/-! Lines.

A line ends with its only line feed; the last line of a text may have none (`AreLines`).
Every text is made of such lines in exactly one way (`eq_lines_iff`). After a line feed
cutting starts anew (`lines_append_lineFeed`), so lines written one after the other are
found again (`lines_flatMap`). -/
namespace Calculator.Text

inductive AreLines : List (List Char) → Prop where
  | nil : AreLines []
  | last {line} : line ≠ [] → '\n' ∉ line → AreLines [line]
  | cons {line lines} : '\n' ∉ line → AreLines lines → AreLines ((line ++ ['\n']) :: lines)

/-! ### Cutting -/

theorem lines_lineFeed (cs : List Char) : lines ('\n' :: cs) = ['\n'] :: lines cs :=
  if_pos rfl

theorem lines_cons_of_nil {c : Char} {cs : List Char} (hc : c ≠ '\n') (h : lines cs = []) :
    lines (c :: cs) = [[c]] := by
  rw [lines, if_neg hc, h]

theorem lines_cons_of_cons {c : Char} {cs line : List Char} {rest : List (List Char)}
    (hc : c ≠ '\n') (h : lines cs = line :: rest) : lines (c :: cs) = (c :: line) :: rest := by
  rw [lines, if_neg hc, h]

theorem lines_eq_nil_iff (cs : List Char) : lines cs = [] ↔ cs = [] := by
  constructor
  · intro h
    rw [← flatten_lines cs, h, List.flatten_nil]
  · rintro rfl
    rfl

theorem areLines_lines (cs : List Char) : AreLines (lines cs) := by
  induction cs with
  | nil => exact .nil
  | cons c cs ih =>
    by_cases hc : c = '\n'
    · rw [hc, lines_lineFeed]
      exact @AreLines.cons [] _ (by simp) ih
    · cases h : lines cs with
      | nil =>
        rw [lines_cons_of_nil hc h]
        exact .last (by simp) (by simpa using Ne.symm hc)
      | cons line rest =>
        rw [lines_cons_of_cons hc h]
        rw [h] at ih
        -- The character goes in front of the line that follows, which is the last one or not.
        cases ih with
        | last hne hline => exact .last (by simp) (by simpa [Ne.symm hc] using hline)
        | @cons line _ hline hrest =>
          exact @AreLines.cons (c :: line) _ (by simpa [Ne.symm hc] using hline) hrest

/-- What comes after a line feed has lines of its own. -/
theorem lines_append_lineFeed (cs ds : List Char) :
    lines (cs ++ '\n' :: ds) = lines (cs ++ ['\n']) ++ lines ds := by
  induction cs with
  | nil => exact lines_lineFeed ds
  | cons c cs ih =>
    rw [List.cons_append, List.cons_append]
    by_cases hc : c = '\n'
    · rw [hc, lines_lineFeed, lines_lineFeed, ih]
      rfl
    · cases h : lines (cs ++ ['\n']) with
      | nil => simp [lines_eq_nil_iff] at h
      | cons line rest =>
        rw [h] at ih
        rw [lines_cons_of_cons hc h, lines_cons_of_cons hc ih]
        rfl

theorem lines_of_not_mem {line : List Char} (hne : line ≠ []) (h : '\n' ∉ line) :
    lines line = [line] := by
  induction line with
  | nil => contradiction
  | cons c cs ih =>
    have hc : c ≠ '\n' := Ne.symm (List.ne_of_not_mem_cons h)
    have hcs := List.not_mem_of_not_mem_cons h
    by_cases hnil : cs = []
    · rw [hnil]
      exact lines_cons_of_nil hc rfl
    · exact lines_cons_of_cons hc (ih hnil hcs)

theorem lines_closed {line : List Char} (h : '\n' ∉ line) :
    lines (line ++ ['\n']) = [line ++ ['\n']] := by
  induction line with
  | nil => rfl
  | cons c cs ih =>
    have hc : c ≠ '\n' := Ne.symm (List.ne_of_not_mem_cons h)
    have hcs := List.not_mem_of_not_mem_cons h
    exact lines_cons_of_cons hc (ih hcs)

/-! ### Lines put together -/

theorem AreLines.lines_flatten {ls : List (List Char)} (h : AreLines ls) : lines ls.flatten = ls := by
  induction h with
  | nil => rfl
  | @last line hne hline => simpa using lines_of_not_mem hne hline
  | @cons line rest hline _ ih =>
    rw [List.flatten_cons, List.append_assoc]
    show lines (line ++ '\n' :: rest.flatten) = _
    rw [lines_append_lineFeed, lines_closed hline, ih]
    rfl

/-- **A text is cut into lines in one way only.** -/
theorem eq_lines_iff (cs : List Char) (ls : List (List Char)) :
    ls = lines cs ↔ AreLines ls ∧ ls.flatten = cs := by
  constructor
  · rintro rfl
    exact ⟨areLines_lines cs, flatten_lines cs⟩
  · rintro ⟨hlines, rfl⟩
    exact hlines.lines_flatten.symm

/-- Texts without line feeds, each on a line of its own, are the lines. -/
theorem lines_flatMap {texts : List (List Char)} (h : ∀ text ∈ texts, '\n' ∉ text) :
    lines (texts.flatMap (· ++ ['\n'])) = texts.map (· ++ ['\n']) := by
  have hlines : AreLines (texts.map (· ++ ['\n'])) := by
    induction texts with
    | nil => exact .nil
    | cons text texts ih =>
      obtain ⟨htext, htexts⟩ := List.forall_mem_cons.1 h
      exact .cons htext (ih htexts)
  rw [List.flatMap_def, hlines.lines_flatten]

/-! ### Ends of lines -/

/-- A text without carriage returns has its line ends as they should be. -/
theorem unifyLineEnds_of_not_mem {cs : List Char} (h : '\r' ∉ cs) : unifyLineEnds cs = cs := by
  induction cs using unifyLineEnds.induct with
  | case1 => rfl
  | case2 | case3 => simp at h
  | case4 c cs hpair hreturn ih =>
    rw [unifyLineEnds, ih (List.not_mem_of_not_mem_cons h)]
    · exact hpair
    · exact hreturn

end Calculator.Text
