import Calculator.Proofs.Session.Crash
import Calculator.Proofs.Text.Lines

/-! A session as it goes on.

Someone at a session is prompted, gives a line and reads what it calls for, again and again
until the input ends or there is no room for a tree (`hold`). So the lines are taken in turn,
and then the input ends (`hold_eq`). If there is room for the trees of all lines, what they call
for is written one after the other (`sessionWithin_of_none`). If not, the session ends in a crash
at the first tree that is too deep, and what was written for the lines before is the same
(`sessionWithin_of_crash`). -/
namespace Calculator
open Text

/-- The lines of the input are the next one and those of the rest. -/
theorem lines_eq_readLine (c : Char) (cs : List Char) :
    lines (c :: cs) = (readLine (c :: cs)).1 :: lines (readLine (c :: cs)).2 := by
  induction cs generalizing c with
  | nil =>
    by_cases hc : c = '\n'
    · rw [hc]
      rfl
    · simp [lines, readLine, hc]
  | cons d ds ih =>
    by_cases hc : c = '\n'
    · simp [hc, lines_lineFeed, readLine]
    · rw [lines_cons_of_cons hc (ih d)]
      simp [readLine, hc]

/-! ### Turns -/

namespace Options
variable (room : Room) (options : Options)

/-- A line is prompted for, and answered if it is not blank. -/
def prompted (line : String) : Ending :=
  (if isBlankLine line then {} else options.attempt room line).after (.ofOutput options.prompt)

theorem prompted_eq (line : String) : options.prompted room line =
    if options.tooDeep room line then
      { written := .ofOutput options.prompt ++ { diagnostics := options.lastEntry room line }
        crash := some .tooDeep }
    else { written := options.turn line } := by
  rw [prompted, turn]
  by_cases hblank : isBlankLine line = true
  · have hrespond : options.respond line = {} := if_pos hblank
    rw [if_pos hblank, options.tooDeep_of_isBlankLine room hblank, hrespond]
    rfl
  · have hrespond : options.respond line = options.reply line := if_neg hblank
    rw [if_neg hblank, attempt_eq, hrespond]
    cases options.tooDeep room line <;> rfl

theorem crash_prompted (line : String) : (options.prompted room line).crash =
    if options.tooDeep room line then some .tooDeep else none := by
  rw [prompted_eq]
  cases options.tooDeep room line <;> rfl

/-- The lines are taken in turn, and then the input ends. -/
theorem hold_eq (unread : List Char) (written : Transcript) :
    options.hold room unread written =
      (Ending.inTurn (options.prompted room) ((lines unread).map String.ofList) written).andThen
        fun written => { written := written ++ options.closing } := by
  induction unread, written using hold.induct options with
  | case1 written =>
    have hclosing : Transcript.ofOutput options.prompt ++ .ofOutput "\n" = options.closing := rfl
    rw [hold, Transcript.append_assoc, hclosing]
    rfl
  | case2 written c cs line prompted hblank ih =>
    have hskip : options.prompted room (String.ofList line) =
        { written := .ofOutput options.prompt } := by
      rw [Options.prompted, isBlankLine, String.toList_ofList, if_pos hblank, Ending.after,
        Transcript.append_empty]
    rw [hold, if_pos hblank, ih, lines_eq_readLine, List.map_cons, Ending.inTurn, hskip]
    rfl
  | case3 written c cs line hblank ih =>
    have htake : options.prompted room (String.ofList line) =
        (options.attempt room (String.ofList line)).after (.ofOutput options.prompt) := by
      rw [Options.prompted, isBlankLine, String.toList_ofList, if_neg hblank]
    rw [hold, if_neg hblank, lines_eq_readLine, List.map_cons, Ending.inTurn, htake,
      Ending.after_after, Ending.andThen_andThen]
    exact congrArg _ (funext ih)

end Options

/-! ### The whole session -/

/-- The lines of a text, as texts. -/
def textLines (input : String) : List String :=
  (lines input.toList).map String.ofList

theorem textLines_iff (input : String) (ls : List String) :
    AreLines (ls.map String.toList) ∧ String.join ls = input ↔ ls = textLines input := by
  have hflatten : String.join ls = input ↔ (ls.map String.toList).flatten = input.toList := by
    rw [← String.toList_inj, String.toList_join, List.flatMap_def]
  rw [hflatten, ← eq_lines_iff, textLines]
  constructor
  · intro h
    rw [← h, List.map_map]
    simp
  · rintro rfl
    simp

theorem toList_append_lineFeed (text : String) : (text ++ "\n").toList = text.toList ++ ['\n'] :=
  String.toList_append

theorem textLines_append {first : String} (h : first = "" ∨ ∃ s, first = s ++ "\n")
    (second : String) : textLines (first ++ second) = textLines first ++ textLines second := by
  rcases h with rfl | ⟨s, rfl⟩
  · simp [textLines, lines]
  · have hline : (s ++ "\n" ++ second).toList = s.toList ++ '\n' :: second.toList := by simp
    rw [textLines, textLines, textLines, hline, lines_append_lineFeed, toList_append_lineFeed,
      List.map_append]

/-- Between the lines that call for an answer there are only blank ones. -/
theorem exists_of_asked_eq_append_cons {ls before after : List String} {text : String}
    (h : asked ls = before ++ text :: after) :
    ∃ lines rest, ls = lines ++ text :: rest ∧ asked lines = before := by
  obtain ⟨lines, rest, rfl, hbefore, hrest⟩ := List.filter_eq_append_iff.1 h
  obtain ⟨blanks, rest, rfl, hblanks, -⟩ := List.filter_eq_cons_iff.1 hrest
  refine ⟨lines ++ blanks, rest, (List.append_assoc ..).symm, ?_⟩
  have hnone : asked blanks = [] := List.filter_eq_nil_iff.2 hblanks
  rw [asked, List.filter_append, hbefore]
  exact (congrArg _ hnone).trans (List.append_nil _)

/-- The input that has each text on a line of its own. -/
def onLines (texts : List String) : String :=
  String.join (texts.map (· ++ "\n"))

theorem toList_onLines (texts : List String) :
    (onLines texts).toList = (texts.map String.toList).flatMap (· ++ ['\n']) := by
  induction texts with
  | nil => rfl
  | cons text texts ih =>
    rw [onLines, List.map_cons, String.join_cons, String.toList_append, toList_append_lineFeed]
    exact congrArg _ ih

theorem textLines_onLines {texts : List String} (h : ∀ text ∈ texts, '\n' ∉ text.toList) :
    textLines (onLines texts) = texts.map (· ++ "\n") := by
  rw [textLines, toList_onLines, lines_flatMap (by simpa using h), List.map_map, List.map_map]
  refine List.map_congr_left fun text _ => ?_
  show String.ofList (text.toList ++ ['\n']) = text ++ "\n"
  rw [← toList_append_lineFeed, String.ofList_toList]

namespace Options

theorem session_eq_join (options : Options) (input : String) :
    options.session input = .join ((textLines input).map options.turn) ++ options.closing := by
  rw [textLines, List.map_map]
  rfl

theorem session_eq (options : Options) (input : String) : options.session input =
    ⟨String.join ((textLines input).map fun line => options.prompt ++ options.shownLine line) ++
        (options.prompt ++ "\n"),
      String.join ((asked (textLines input)).map options.report),
      ((asked (textLines input)).filterMap options.complaint?).length⟩ := by
  rw [session_eq_join, join_turn]
  ext1
  · rfl
  · exact String.append_empty
  · rfl

end Options

/-! ### Sessions with little room -/

namespace Options
variable {room : Room} {options : Options} {input : String}

theorem sessionWithin_eq (room : Room) (options : Options) (input : String) :
    options.sessionWithin room input =
      (Ending.inTurn (options.prompted room) (textLines input) {}).andThen
        fun written => { written := written ++ options.closing } :=
  options.hold_eq room input.toList {}

theorem crash_prompted_eq_none {line : String} (h : options.tooDeep room line = false) :
    (options.prompted room line).crash = none := by
  rw [crash_prompted, h]
  rfl

theorem map_prompted {lines : List String} (h : ∀ line ∈ lines, options.tooDeep room line = false) :
    lines.map (fun line => (options.prompted room line).written) = lines.map options.turn := by
  refine List.map_congr_left fun line hline => ?_
  rw [prompted_eq, h line hline]
  rfl

/-- There is room for blank lines. -/
theorem tooDeep_of_asked {lines : List String}
    (h : ∀ line ∈ asked lines, options.tooDeep room line = false) :
    ∀ line ∈ lines, options.tooDeep room line = false := by
  intro line hline
  by_cases hblank : isBlankLine line = true
  · exact options.tooDeep_of_isBlankLine room hblank
  · exact h line (List.mem_filter.2 ⟨hline, by simpa using hblank⟩)

/-- A session with room for all its trees goes on to the end. -/
theorem sessionWithin_of_none (h : ∀ line ∈ textLines input, options.tooDeep room line = false) :
    options.sessionWithin room input = { written := options.session input } := by
  have hnone := fun line hline => crash_prompted_eq_none (h line hline)
  rw [sessionWithin_eq, Ending.inTurn_of_none hnone, Ending.andThen_of_none rfl, map_prompted h,
    session_eq_join, Transcript.empty_append]

/-- A session ends at the first tree that there is no room for. -/
theorem sessionWithin_of_crash {before after : List String} {line : String}
    (hlines : textLines input = before ++ line :: after)
    (h : ∀ line ∈ before, options.tooDeep room line = false)
    (hdeep : options.tooDeep room line = true) : options.sessionWithin room input =
      { written := .join (before.map options.turn) ++
          (.ofOutput options.prompt ++ { diagnostics := options.lastEntry room line })
        crash := some .tooDeep } := by
  have hnone := fun line hline => crash_prompted_eq_none (h line hline)
  have hcrash : (options.prompted room line).crash ≠ none := by
    rw [crash_prompted, hdeep]
    simp
  have hline : options.prompted room line =
      { written := .ofOutput options.prompt ++ { diagnostics := options.lastEntry room line }
        crash := some .tooDeep } := by
    rw [prompted_eq, hdeep]
    rfl
  have hend : (Ending.inTurn (options.prompted room) (textLines input) {}).crash ≠ none := by
    rw [hlines, Ending.inTurn_of_crash hnone hcrash]
    exact hcrash
  rw [sessionWithin_eq, Ending.andThen_of_crash hend, hlines, Ending.inTurn_of_crash hnone hcrash,
    map_prompted h, Transcript.empty_append, hline]

/-- **A session goes on to the end, or to the first tree that there is no room for.** -/
theorem sessionWithin_cases (room : Room) (options : Options) (input : String) :
    (∀ line ∈ textLines input, options.tooDeep room line = false) ∧
        options.sessionWithin room input = { written := options.session input } ∨
      ∃ before line after, textLines input = before ++ line :: after ∧
        options.tooDeep room line = true ∧ options.sessionWithin room input =
          { written := .join (before.map options.turn) ++
              (.ofOutput options.prompt ++ { diagnostics := options.lastEntry room line })
            crash := some .tooDeep } := by
  cases hfind : (textLines input).find? (options.tooDeep room) with
  | none =>
    have h : ∀ line ∈ textLines input, options.tooDeep room line = false := by
      simpa using List.find?_eq_none.1 hfind
    exact .inl ⟨h, sessionWithin_of_none h⟩
  | some line =>
    obtain ⟨hdeep, before, after, hlines, h⟩ := List.find?_eq_some_iff_append.1 hfind
    have h : ∀ line ∈ before, options.tooDeep room line = false := by simpa using h
    exact .inr ⟨before, line, after, hlines, hdeep, sessionWithin_of_crash hlines h hdeep⟩

theorem crash_sessionWithin_eq_none_iff : (options.sessionWithin room input).crash = none ↔
    ∀ line ∈ textLines input, options.tooDeep room line = false := by
  obtain ⟨h, hsession⟩ | ⟨before, line, after, hlines, hdeep, hsession⟩ :=
    sessionWithin_cases room options input
  · rw [hsession]
    exact iff_of_true rfl h
  · rw [hsession]
    refine iff_of_false (Option.some_ne_none _) fun h => ?_
    have hroom := h line (by rw [hlines]; simp)
    rw [hdeep] at hroom
    contradiction

/-- A session on some lines and then more is the session on the lines, but for its end, and then
the session on the rest. If the lines alone come to a crash there is no more. -/
theorem sessionWithin_append {first : String} (h : first = "" ∨ ∃ s, first = s ++ "\n")
    (second : String) :
    (∃ before, options.sessionWithin room first = { written := before ++ options.closing } ∧
      options.sessionWithin room (first ++ second) =
        (options.sessionWithin room second).after before) ∨
    (options.sessionWithin room first).crash ≠ none ∧
      options.sessionWithin room (first ++ second) = options.sessionWithin room first := by
  rw [sessionWithin_eq, sessionWithin_eq, sessionWithin_eq, textLines_append h,
    Ending.inTurn_append]
  by_cases hfirst : (Ending.inTurn (options.prompted room) (textLines first) {}).crash = none
  · refine .inl ⟨(Ending.inTurn (options.prompted room) (textLines first) {}).written, ?_, ?_⟩
    · exact Ending.andThen_of_none hfirst _
    · have hclosing (a b : Transcript) : ({ written := a ++ b ++ options.closing } : Ending) =
          ({ written := b ++ options.closing } : Ending).after a :=
        congrArg (Ending.mk · none) (Transcript.append_assoc a b options.closing)
      rw [Ending.andThen_of_none hfirst, ← Ending.after_andThen hclosing,
        ← Ending.inTurn_eq_after, Transcript.append_empty]
  · have hend := fun next => Ending.andThen_of_crash hfirst next
    rw [hend, hend, hend]
    exact .inr ⟨hfirst, rfl⟩

/-- A session on a single line that there is no room for. -/
theorem sessionWithin_signs {n : Nat} (hdeep : options.tooDeep room (signs n) = true) :
    options.sessionWithin room (signs n) =
      { written := .ofOutput options.prompt ++ { diagnostics := options.lastEntry room (signs n) }
        crash := some .tooDeep } := by
  have hlines : textLines (signs n) = [] ++ signs n :: [] := by
    rw [textLines, signs, String.toList_ofList, lines_of_not_mem (by simp) (by simp)]
    rfl
  rw [sessionWithin_of_crash hlines (by simp) hdeep]
  exact congrArg (Ending.mk · _) (Transcript.empty_append _)

/-- **A session is the sum of its lines, up to a tree that there is no room for.** A tree that was
read holds nothing foreign, so that is all that can go wrong with a line but what is complained of,
and only if trees are shown. Every line is prompted for. Its answer is printed if it is not blank
and has one, and there is a complaint for each line that is not blank and has none. So what comes
of a line has nothing to do with the other lines, unless a session never gets to it: where there
is no room for a tree it ends, and what was written by then is for the lines before. -/
theorem session_by_lines (room : Room) (options : Options) (hdebug : options.debug = false)
    (input : String) :
    (∀ tokens e, Expr.ofTokens tokens = .ok e → e.IsGenuine) ∧
    (∀ line failure, answer options.showTree line = .error failure →
      (∃ e, failure = .lex e) ∨ ∃ e, failure = .malformed e) ∧
    (∀ line, (options.attempt room line).crash =
        (if options.tooDeep room line then some .tooDeep else none) ∧
      (options.tooDeep room line = true ↔ options.showTree = true ∧
        ∃ e, Expr.ofText line = .ok e ∧ room.printing < e.height)) ∧
    (∃ ls, (∀ ls', AreLines (ls'.map String.toList) ∧ String.join ls' = input ↔ ls' = ls) ∧
      ((options.sessionWithin room input).crash = none ↔
        ∀ line ∈ ls, options.tooDeep room line = false) ∧
      ((∀ line ∈ ls, options.tooDeep room line = false) → options.sessionWithin room input =
        { written :=
            ⟨String.join (ls.map fun line => options.prompt ++ options.shownLine line) ++
                (options.prompt ++ "\n"),
              String.join ((asked ls).filterMap options.complaint?),
              ((asked ls).filterMap options.complaint?).length⟩ }) ∧
      ∀ before line after, ls = before ++ line :: after →
        (∀ line ∈ before, options.tooDeep room line = false) →
        options.tooDeep room line = true → options.sessionWithin room input =
          { written :=
              ⟨String.join (before.map fun line => options.prompt ++ options.shownLine line) ++
                  options.prompt,
                String.join ((asked before).filterMap options.complaint?),
                ((asked before).filterMap options.complaint?).length⟩
            crash := some .tooDeep }) ∧
    ∀ first second, first = "" ∨ (∃ s, first = s ++ "\n") →
      ((options.sessionWithin room first).crash = none →
        (options.sessionWithin room (first ++ second)).crash =
          (options.sessionWithin room second).crash ∧
        (options.sessionWithin room (first ++ second)).written.failures =
          (options.sessionWithin room first).written.failures +
            (options.sessionWithin room second).written.failures ∧
        (options.sessionWithin room (first ++ second)).written.diagnostics =
          (options.sessionWithin room first).written.diagnostics ++
            (options.sessionWithin room second).written.diagnostics ∧
        ∃ before, (options.sessionWithin room first).written.output =
            before ++ (options.prompt ++ "\n") ∧
          (options.sessionWithin room (first ++ second)).written.output =
            before ++ (options.sessionWithin room second).written.output) ∧
      ((options.sessionWithin room first).crash ≠ none →
        options.sessionWithin room (first ++ second) = options.sessionWithin room first) := by
  refine ⟨fun _ _ => Expr.isGenuine_of_ofTokens, fun _ _ => failure_cases, fun line => ⟨?_, ?_⟩,
    ⟨textLines input, textLines_iff input, crash_sessionWithin_eq_none_iff, fun h => ?_,
      fun before line after hlines h hdeep => ?_⟩,
    fun first second h => ?_⟩
  · exact options.crash_attempt room line
  · rw [tooDeep_iff, hdebug]
    simp [and_left_comm]
  · rw [sessionWithin_of_none h, session_eq, options.join_report hdebug]
  · rw [sessionWithin_of_crash hlines h hdeep, join_turn, options.join_report hdebug,
      options.lastEntry_of_debug room hdebug]
    refine congrArg (Ending.mk · _) ?_
    ext1 <;> simp [Transcript.ofOutput]
  · obtain ⟨before, hfirst, hboth⟩ | ⟨hcrash, hboth⟩ :=
      @sessionWithin_append room options first h second
    · rw [hfirst, hboth]
      refine ⟨fun _ => ⟨rfl, rfl, ?_, before.output, rfl, rfl⟩, fun hcrash => absurd rfl hcrash⟩
      exact congrArg (· ++ _) String.append_empty.symm
    · exact ⟨fun hnone => absurd hnone hcrash, fun _ => hboth⟩

/-- A line that fails, a blank one, a tree that there is no room for, and one too late. -/
theorem session_by_lines_cut_short :
    ({ showTree := true, prompt := ": " } : Options).debug = false ∧
      (∃ s, "1+\n \n" = s ++ "\n") ∧
      (sessionWithin { printing := 2 } { showTree := true, prompt := ": " } "1+\n \n").crash = none ∧
      (sessionWithin { printing := 2 } { showTree := true, prompt := ": " }
        ("1+\n \n" ++ "2\n--7\n2")).written.failures = 1 + 0 ∧
      sessionWithin { printing := 2 } { showTree := true, prompt := ": " } "2\n--7\n2" =
        { written := { output := ": 2\n: " }, crash := some .tooDeep } ∧
      ∃ before, ": : : \n" = before ++ (": " ++ "\n") ∧
        (sessionWithin { printing := 2 } { showTree := true, prompt := ": " }
          ("1+\n \n" ++ "2\n--7\n2")).written.output = before ++ ": 2\n: " := by
  have hdebug : ({ showTree := true, prompt := ": " } : Options).debug = false := rfl
  have hended : ∃ s, "1+\n \n" = s ++ "\n" := ⟨"1+\n ", by decide⟩
  obtain ⟨-, -, -, ⟨ls, hls, -, -, hcut⟩, hsum⟩ := session_by_lines { printing := 2 }
    { showTree := true, prompt := ": " } hdebug "2\n--7\n2"
  have hlines : ls = ["2\n"] ++ "--7\n" :: ["2"] := by
    refine ((hls _).1 ((textLines_iff _ _).2 ?_)).symm
    decide +kernel
  have hsecond : sessionWithin { printing := 2 } { showTree := true, prompt := ": " }
      "2\n--7\n2" = { written := { output := ": 2\n: " }, crash := some .tooDeep } := by
    rw [hcut _ _ _ hlines (by decide +kernel) (by decide +kernel)]
    decide +kernel
  have hfirst : sessionWithin { printing := 2 } { showTree := true, prompt := ": " }
      "1+\n \n" = { written := ⟨": : : \n",
        "Could not parse expression! op('+') is missing an operand\n", 1⟩ } := by
    rw [sessionWithin_of_none (by decide +kernel)]
    decide +kernel
  have hnone : (sessionWithin { printing := 2 } { showTree := true, prompt := ": " }
      "1+\n \n").crash = none := by rw [hfirst]
  obtain ⟨hgoes, -⟩ := hsum "1+\n \n" "2\n--7\n2" (.inr hended)
  obtain ⟨-, hfailures, -, hbefore⟩ := hgoes hnone
  rw [hfirst, hsecond] at hfailures hbefore
  exact ⟨hdebug, hended, hnone, hfailures, hsecond, hbefore⟩

/-- Ten thousand signs are more than there is room for. -/
theorem session_of_deep_line :
    sessionWithin {} { showTree := true } (signs 10000) =
      { written := { output := "> " }, crash := some .tooDeep } := by
  have hdeep : tooDeep {} { showTree := true } (signs 10000) = true :=
    tooDeep_signs (.inr ⟨rfl, by decide⟩)
  rw [sessionWithin_signs hdeep, lastEntry_of_debug _ _ rfl]
  rfl

end Options
end Calculator
