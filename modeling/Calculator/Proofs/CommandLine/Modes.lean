import Calculator.Proofs.CommandLine.Run
import Calculator.Proofs.Text.Quoted
import Calculator.Proofs.Token.Boundary
import Calculator.Proofs.Token.Stop

/-! Expressions as arguments and as lines.

What is answered to an expression does not depend on whether it is an argument or a line of
a session, where a line feed comes after it. The line feed is a blank, so the tokens are the
same, and if reading stops it stops in the same place; all that differs is that the line feed
is quoted too (`onALine_answer`). The lines of expressions are cut where they were put
together, whatever else in them might separate lines, and so both ways of asking come to
the same (`run_arguments_as_lines`). -/
namespace Calculator
open Text

/-! ### A line feed at the end -/

theorem standsAlone_lineFeed : StandsAlone '\n' :=
  standsAlone_of_not_mem_literal rfl (by decide)

theorem Token.scan_append_lineFeed (cs : List Char) : scan (cs ++ ['\n']) =
    ((scan cs).1, if (scan cs).2 = [] then [] else (scan cs).2 ++ ['\n']) := by
  have hblank : scan ['\n'] = ([], []) := scan_of_none rfl
  rw [scan_append standsAlone_lineFeed, hblank]
  split <;> simp

theorem tokenize_lineFeed_of_ok {text : String} {tokens : List Token}
    (h : tokenize text = .ok tokens) : tokenize (text ++ "\n") = .ok tokens := by
  rw [tokenize_eq_ok_iff] at h ⊢
  rw [toList_append_lineFeed, Token.scan_append_lineFeed, h]
  rfl

theorem tokenize_lineFeed_of_error {text : String} {e : LexError} (h : tokenize text = .error e) :
    tokenize (text ++ "\n") = .error ⟨e.position, e.rest ++ "\n"⟩ := by
  obtain ⟨consumed, unread, hne, htext, hscan, rfl⟩ := (tokenize_eq_error_iff text e).1 h
  refine (tokenize_eq_error_iff _ _).2 ⟨consumed, unread ++ ['\n'], by simp, ?_, ?_, ?_⟩
  · rw [toList_append_lineFeed, htext, List.append_assoc]
  · rw [toList_append_lineFeed, Token.scan_append_lineFeed, hscan]
    exact if_neg hne
  · rw [String.ofList_append]

/-- The error of a text when it stands on a line: in the same place, and the message shows the
line feed before it closes the quotation. -/
structure LexError.IsOnALine (e e' : LexError) : Prop where
  position : e'.position = e.position
  message : ∃ before mark, e.message = before ++ String.singleton mark ∧
    e'.message = before ++ "\\n" ++ String.singleton mark

theorem LexError.isOnALine (e : LexError) : e.IsOnALine ⟨e.position, e.rest ++ "\n"⟩ where
  position := rfl
  message := by
    obtain ⟨start, hstart⟩ :
        ∃ start, ∀ rest, message ⟨e.position, rest⟩ = start ++ quoted rest :=
      ⟨"unexpected input at position " ++ toString e.position ++ ": ", fun _ => rfl⟩
    obtain ⟨before, mark, hquote, hquoteLine⟩ := exists_quote_lineFeed e.rest.toList
    refine ⟨start ++ String.ofList before, mark, ?_, ?_⟩
    · have hquoted : quoted e.rest = String.ofList before ++ String.singleton mark := by
        rw [quoted, hquote, String.ofList_append, String.singleton_eq_ofList]
      rw [hstart e.rest, hquoted, String.append_assoc]
    · have hquoted : quoted (e.rest ++ "\n") =
          String.ofList before ++ "\\n" ++ String.singleton mark := by
        rw [quoted, toList_append_lineFeed, hquoteLine, String.ofList_append, String.ofList_append,
          String.singleton_eq_ofList]
        rfl
      rw [hstart, hquoted, String.append_assoc, String.append_assoc, String.append_assoc]

/-- What is answered to a text, and to the line that it stands on. -/
inductive OnALine : Except Failure String → Except Failure String → Prop where
  | result (text : String) : OnALine (.ok text) (.ok text)
  | malformed (e : Malformed) : OnALine (.error (.malformed e)) (.error (.malformed e))
  | lex {e e' : LexError} : e.IsOnALine e' → OnALine (.error (.lex e)) (.error (.lex e'))

theorem onALine_answer (showTree : Bool) (text : String) :
    OnALine (answer showTree text) (answer showTree (text ++ "\n")) := by
  cases htokens : tokenize text with
  | error e =>
    have hline := tokenize_lineFeed_of_error htokens
    rw [answer_of_error (Expr.ofText_of_lexError htokens),
      answer_of_error (Expr.ofText_of_lexError hline)]
    exact .lex e.isOnALine
  | ok tokens =>
    rw [answer_congr ((tokenize_lineFeed_of_ok htokens).trans htokens.symm) showTree]
    rcases answer_cases text with ⟨_, herror, -⟩ | ⟨_, e, -, -, hanswer⟩ | ⟨_, _, -, -, hanswer⟩
    · rw [htokens] at herror
      contradiction
    · rw [hanswer]
      exact .malformed e
    · obtain ⟨result, hresult⟩ := hanswer showTree
      rw [hresult]
      exact .result result

/-- A line feed takes no room. -/
theorem Options.tooDeep_line (room : Room) (options : Options) (text : String) :
    options.tooDeep room (text ++ "\n") = options.tooDeep room text := by
  cases htokens : tokenize text with
  | error e =>
    rw [tooDeep, tooDeep, Expr.ofText_of_lexError htokens,
      Expr.ofText_of_lexError (tokenize_lineFeed_of_error htokens)]
  | ok tokens =>
    have hline := tokenize_lineFeed_of_ok htokens
    rw [tooDeep, tooDeep, Expr.ofText_congr (hline.trans htokens.symm)]

theorem Options.shown_line (options : Options) (text : String) :
    options.shown (text ++ "\n") = options.shown text := by
  have h := onALine_answer options.showTree text
  unfold shown
  generalize answer options.showTree text = alone at h ⊢
  generalize answer options.showTree (text ++ "\n") = line at h ⊢
  cases h <;> rfl

/-! ### Texts on lines -/

/-- A text that fits on a line and makes it one that calls for an answer. -/
structure FitsLine (text : String) : Prop where
  noLineFeed : '\n' ∉ text.toList
  noReturn : '\r' ∉ text.toList
  notBlank : isBlankLine text = false

section
variable {texts : List String}

theorem unified_onLines (h : ∀ text ∈ texts, FitsLine text) :
    CommandLine.Invocation.unified (onLines texts) = onLines texts := by
  have hnot : '\r' ∉ (onLines texts).toList := by
    rw [toList_onLines]
    simp only [List.mem_flatMap, List.mem_map, List.mem_append, List.mem_singleton]
    rintro ⟨_, ⟨text, htext, rfl⟩, hmem | hmem⟩
    · exact (h text htext).noReturn hmem
    · exact absurd hmem (by decide)
  rw [CommandLine.Invocation.unified, unifyLineEnds_of_not_mem hnot, String.ofList_toList]

theorem isBlankLine_line (text : String) : isBlankLine (text ++ "\n") = isBlankLine text := by
  have hblank : isBlank '\n' = true := by decide
  rw [isBlankLine, isBlankLine, toList_append_lineFeed, List.all_append]
  simp [hblank]

theorem asked_line (h : ∀ text ∈ texts, FitsLine text) :
    asked (texts.map (· ++ "\n")) = texts.map (· ++ "\n") := by
  refine List.filter_eq_self.2 fun line hline => ?_
  obtain ⟨text, htext, rfl⟩ := List.mem_map.1 hline
  rw [isBlankLine_line, (h text htext).notBlank]
  rfl

theorem Options.map_shownLine (options : Options) (hprompt : options.prompt = "")
    (h : ∀ text ∈ texts, FitsLine text) :
    ((texts.map (· ++ "\n")).map fun line => options.prompt ++ options.shownLine line) =
      texts.map options.shown := by
  rw [List.map_map]
  refine List.map_congr_left fun text htext => ?_
  have hnot : isBlankLine (text ++ "\n") = false := by
    rw [isBlankLine_line, (h text htext).notBlank]
  show options.prompt ++ options.shownLine (text ++ "\n") = options.shown text
  rw [hprompt, shownLine, hnot, String.empty_append]
  exact options.shown_line text

end

/-! ### Two ways of asking -/

/-- The options of a session without a prompt. -/
def Options.unprompted (options : Options) : Options :=
  { options with prompt := "" }

theorem Options.tooDeep_unprompted (room : Room) (options : Options) (e : String) :
    options.unprompted.tooDeep room (e ++ "\n") = options.tooDeep room e :=
  options.unprompted.tooDeep_line room e

namespace CommandLine
variable (room : Room) (options : Options) (expressions : List String)

/-- Expressions given as arguments, whatever there is to read besides. -/
def asArguments (input : String) : Outcome :=
  Invocation.runWithin room ⟨options, expressions⟩ input

/-- Expressions given as the lines of a session, without a prompt. -/
def asLines : Outcome :=
  Invocation.runWithin room ⟨options.unprompted, []⟩ (onLines expressions)

variable {room options expressions}

theorem asArguments_of_none (hdebug : options.debug = false) (hne : expressions ≠ [])
    (hroom : ∀ e ∈ expressions, options.tooDeep room e = false) (input : String) :
    asArguments room options expressions input =
      ⟨exitCode (expressions.filterMap options.complaint?).length,
        String.join (expressions.map options.shown),
        String.join (expressions.filterMap options.complaint?)⟩ := by
  have hinputs : Invocation.inputs ⟨options, expressions⟩ input = expressions := if_neg hne
  rw [asArguments, Invocation.runWithin_of_none (by rwa [hinputs]),
    Invocation.run_expressions _ _ hne, options.join_report hdebug]

theorem asArguments_of_crash (hdebug : options.debug = false) {before after : List String}
    {e : String} (h : ∀ e ∈ before, options.tooDeep room e = false)
    (hdeep : options.tooDeep room e = true) (input : String) :
    asArguments room options (before ++ e :: after) input =
      ⟨1, String.join (before.map options.shown),
        String.join (before.filterMap options.complaint?)⟩ := by
  have hne : before ++ e :: after ≠ [] := by simp
  have hinputs : Invocation.inputs ⟨options, before ++ e :: after⟩ input = before ++ e :: after :=
    if_neg hne
  rw [asArguments, Invocation.runWithin_expressions_of_crash hne hinputs h hdeep,
    options.join_report hdebug, options.lastEntry_of_debug room hdebug, String.append_empty]
  rfl

theorem textLines_unified_onLines (h : ∀ e ∈ expressions, FitsLine e) :
    textLines (Invocation.unified (onLines expressions)) = expressions.map (· ++ "\n") := by
  rw [unified_onLines h, textLines_onLines fun e he => (h e he).noLineFeed]

theorem asLines_of_none (hdebug : options.debug = false) (h : ∀ e ∈ expressions, FitsLine e)
    (hroom : ∀ e ∈ expressions, options.tooDeep room e = false) :
    asLines room options expressions =
      ⟨0, String.join (expressions.map options.shown) ++ "\n",
        String.join (expressions.filterMap fun e => options.complaint? (e ++ "\n"))⟩ := by
  have hlines := textLines_unified_onLines h
  have hsilent : options.unprompted.debug = false := hdebug
  have hinputs : Invocation.inputs ⟨options.unprompted, []⟩ (onLines expressions) =
      expressions.map (· ++ "\n") := by
    rw [Invocation.inputs, if_pos rfl, hlines, asked_line h]
  have hroom : ∀ line ∈ Invocation.inputs ⟨options.unprompted, []⟩ (onLines expressions),
      options.unprompted.tooDeep room line = false := by
    rw [hinputs]
    refine List.forall_mem_map.2 fun e he => ?_
    exact (options.tooDeep_unprompted room e).trans (hroom e he)
  have hend : options.unprompted.prompt ++ "\n" = "\n" := String.empty_append
  rw [asLines, Invocation.runWithin_of_none hroom, Invocation.run_session _ _ rfl]
  dsimp only
  rw [Options.session_eq, hlines, Options.map_shownLine _ rfl h, asked_line h,
    Options.join_report _ hsilent, List.filterMap_map, hend]
  rfl

theorem asLines_of_crash (hdebug : options.debug = false) {before after : List String} {e : String}
    (h : ∀ e' ∈ before ++ e :: after, FitsLine e')
    (hroom : ∀ e ∈ before, options.tooDeep room e = false)
    (hdeep : options.tooDeep room e = true) :
    asLines room options (before ++ e :: after) =
      ⟨1, String.join (before.map options.shown),
        String.join (before.filterMap fun e => options.complaint? (e ++ "\n"))⟩ := by
  have hbefore : ∀ e ∈ before, FitsLine e := fun e' he' => h e' (List.mem_append_left _ he')
  have hlines := textLines_unified_onLines h
  have hsilent : options.unprompted.debug = false := hdebug
  have hroom : ∀ line ∈ before.map (· ++ "\n"), options.unprompted.tooDeep room line = false := by
    refine List.forall_mem_map.2 fun e he => ?_
    exact (options.tooDeep_unprompted room e).trans (hroom e he)
  rw [List.map_append, List.map_cons] at hlines
  rw [← options.tooDeep_unprompted room e] at hdeep
  rw [asLines, Invocation.runWithin_session_of_crash rfl hlines hroom hdeep]
  dsimp only
  rw [Options.map_shownLine _ rfl hbefore, asked_line hbefore, Options.join_report _ hsilent,
    Options.lastEntry_of_debug _ _ hsilent, List.filterMap_map, String.append_empty]
  exact congrArg (Outcome.mk _ · _) String.append_empty

/-- **Expressions can be arguments or lines.** With room for their trees the answers are the same,
but for the line feed that ends a session, and so are the complaints, but for the line feed that is
quoted if reading stopped before it. The exit code tells of complaints about arguments only.

If trees are shown and one is too deep, either way of asking ends there, with the exit code of a
crash and with what was written for the expressions before, and so no line feed ends the session. -/
theorem run_arguments_as_lines (room room' : Room) {options : Options}
    (hdebug : options.debug = false) {expressions : List String} (hne : expressions ≠ [])
    (h : ∀ e ∈ expressions, FitsLine e) (input : String) :
    (∀ e ∈ expressions,
      OnALine (answer options.showTree e) (answer options.showTree (e ++ "\n"))) ∧
    (∀ room e, options.tooDeep room e = true ↔ options.showTree = true ∧
      ∃ tree, Expr.ofText e = .ok tree ∧ room.printing < tree.height) ∧
    ((∀ e ∈ expressions, options.tooDeep room e = false) →
      (∀ e ∈ expressions, options.tooDeep room' e = false) →
      (asLines room' options expressions).output =
        (asArguments room options expressions input).output ++ "\n" ∧
      (asArguments room options expressions input).diagnostics =
        String.join (expressions.filterMap options.complaint?) ∧
      (asLines room' options expressions).diagnostics =
        String.join (expressions.filterMap fun e => options.complaint? (e ++ "\n")) ∧
      ((asArguments room options expressions input).exitCode = 1 ↔
        ∃ e ∈ expressions, ∃ failure, answer options.showTree e = .error failure) ∧
      ((asArguments room options expressions input).exitCode = 0 ↔
        ∀ e ∈ expressions, ∃ result, answer options.showTree e = .ok result) ∧
      (asLines room' options expressions).exitCode = 0) ∧
    ∀ before e after, expressions = before ++ e :: after →
      ((∀ e ∈ before, options.tooDeep room e = false) → options.tooDeep room e = true →
        asArguments room options expressions input =
          ⟨1, String.join (before.map options.shown),
            String.join (before.filterMap options.complaint?)⟩) ∧
      ((∀ e ∈ before, options.tooDeep room' e = false) → options.tooDeep room' e = true →
        asLines room' options expressions =
          ⟨1, String.join (before.map options.shown),
            String.join (before.filterMap fun e => options.complaint? (e ++ "\n"))⟩) := by
  refine ⟨fun e _ => onALine_answer options.showTree e, fun room e => ?_, fun hroom hroom' => ?_,
    fun before e after hsplit => ⟨fun hbefore hdeep => ?_, fun hbefore hdeep => ?_⟩⟩
  · rw [options.tooDeep_iff, hdebug]
    simp [and_left_comm]
  · rw [asArguments_of_none hdebug hne hroom, asLines_of_none hdebug h hroom']
    exact ⟨rfl, rfl, rfl, exitCode_complaints_eq_one_iff _ _, exitCode_complaints_eq_zero_iff _ _,
      rfl⟩
  · rw [hsplit]
    exact asArguments_of_crash hdebug hbefore hdeep input
  · rw [hsplit] at h ⊢
    exact asLines_of_crash hdebug h hbefore hdeep

/-- An expression where reading stops, one that is incomplete, and one that has an answer; and a
tree that there is no room for as arguments, but as lines. -/
theorem run_arguments_as_lines_failing :
    ({ showTree := true } : Options).debug = false ∧ ["2 $", "1+", "--7"] ≠ [] ∧
      (∀ e ∈ ["2 $", "1+", "--7"], FitsLine e) ∧
      (asLines {} { showTree := true } ["2 $", "1+", "--7"]).output =
        (asArguments {} { showTree := true } ["2 $", "1+", "--7"] "").output ++ "\n" ∧
      (asArguments {} { showTree := true } ["2 $", "1+", "--7"] "").diagnostics =
        "Could not parse expression! unexpected input at position 2: '$'\n" ++
        "Could not parse expression! op('+') is missing an operand\n" ∧
      (asLines {} { showTree := true } ["2 $", "1+", "--7"]).diagnostics =
        "Could not parse expression! unexpected input at position 2: '$\\n'\n" ++
        "Could not parse expression! op('+') is missing an operand\n" ∧
      (asArguments {} { showTree := true } ["2 $", "1+", "--7"] "").exitCode = 1 ∧
      (asLines {} { showTree := true } ["2 $", "1+", "--7"]).exitCode = 0 ∧
      (asLines { printing := 2 } { showTree := true } ["2 $", "1+", "--7"]).exitCode = 1 := by
  have hdebug : ({ showTree := true } : Options).debug = false := rfl
  have hne : ["2 $", "1+", "--7"] ≠ [] := by decide
  have hfits : ∀ e ∈ ["2 $", "1+", "--7"], FitsLine e := by
    have hall : ∀ e ∈ ["2 $", "1+", "--7"],
        '\n' ∉ e.toList ∧ '\r' ∉ e.toList ∧ isBlankLine e = false := by decide
    exact fun e he => ⟨(hall e he).1, (hall e he).2.1, (hall e he).2.2⟩
  have hroom : ∀ e ∈ ["2 $", "1+", "--7"], Options.tooDeep {} { showTree := true } e = false := by
    decide +kernel
  have hfails : ∃ failure, answer true "1+" = .error failure :=
    ⟨.malformed (.missingOperand (.binary .add)), by decide +kernel⟩
  obtain ⟨-, -, hagree, -⟩ := run_arguments_as_lines {} {} hdebug hne hfits ""
  obtain ⟨houtput, hA, hB, hcode, -, hcodeB⟩ := hagree hroom hroom
  obtain ⟨-, -, -, hcut⟩ := run_arguments_as_lines {} { printing := 2 } hdebug hne hfits ""
  obtain ⟨-, hcrash⟩ := hcut ["2 $", "1+"] "--7" [] rfl
  refine ⟨hdebug, hne, hfits, houtput, hA.trans (by decide +kernel), hB.trans (by decide +kernel),
    hcode.2 ⟨"1+", by decide, hfails⟩, hcodeB, ?_⟩
  rw [hcrash (by decide +kernel) (by decide +kernel)]

/-- To show a tree takes room that the answer does not. -/
theorem asArguments_signs {room : Room} {n : Nat} (h : room.printing ≤ n) :
    asArguments room { showTree := true } [signs n] "" = ⟨1, "", ""⟩ ∧
      asLines room { showTree := true } [signs n] = ⟨1, "", ""⟩ := by
  have hdeep : Options.tooDeep room { showTree := true } (signs n) = true :=
    Options.tooDeep_signs (.inr ⟨rfl, h⟩)
  have hfits : ∀ e ∈ [] ++ signs n :: [], FitsLine e := by
    rw [List.nil_append, List.forall_mem_singleton]
    have hdigit : isBlank '7' = false := by decide
    exact ⟨by simp [signs], by simp [signs], by simp [isBlankLine, signs, hdigit]⟩
  exact ⟨@asArguments_of_crash room _ rfl [] [] _ (by simp) hdeep "",
    @asLines_of_crash room _ rfl [] [] _ hfits (by simp) hdeep⟩

/-- Ten thousand signs are more than there is room for, either way. -/
theorem asLines_of_deep_tree :
    asArguments {} { showTree := true } [signs 10000] "" = ⟨1, "", ""⟩ ∧
      asLines {} { showTree := true } [signs 10000] = ⟨1, "", ""⟩ :=
  asArguments_signs (by decide)

end CommandLine
end Calculator
