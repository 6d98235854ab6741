import Calculator.Proofs.CommandLine.Run
import Calculator.Proofs.Message

/-! What each option is for.

The log says of a text what it was read as, or how many tokens were refused; if no tokens were
found there is only the complaint (`Reports`). All of these are lines that nothing quoted can
break, so the log is told by how its lines begin, and what is left without it are the
complaints (`textLines_reports`).

Complaints do not depend on any option, and so neither do the texts that fail nor the exit
code. What is printed depends on the prompt and on whether trees are shown, what is said
on the other stream on whether the log is kept (`run_by_options`). -/
namespace Calculator
open Text

/-! ### The log -/

/-- Whether a line of diagnostics belongs to the log. -/
def isLogLine (line : String) : Bool :=
  "DEBUG ".toList.isPrefixOf line.toList

/-- What is left of the diagnostics without the log. -/
def withoutLog (diagnostics : String) : String :=
  String.join ((textLines diagnostics).filter fun line => !isLogLine line)

/-- What the lines about a text say when the log is kept. -/
inductive Reports (text : String) : List String → Prop where
  | unread {e} : tokenize text = .error e →
      Reports text ["Could not parse expression! " ++ e.message]
  | rejected {tokens e} : tokenize text = .ok tokens → Expr.ofTokens tokens = .error e →
      Reports text
        ["DEBUG parser: rejected " ++ toString tokens.length ++ " tokens: " ++ e.message,
          "Could not parse expression! " ++ e.message]
  | parsed {tokens e} : tokenize text = .ok tokens → Expr.ofTokens tokens = .ok e →
      Reports text ["DEBUG repl: " ++ quoted text ++ " parsed as " ++ e.describe]

theorem isLogLine_append {line : String} (h : isLogLine line = true) (rest : String) :
    isLogLine (line ++ rest) = true := by
  rw [isLogLine, List.isPrefixOf_iff_prefix] at h ⊢
  rw [String.toList_append]
  exact h.trans (List.prefix_append _ _)

theorem isLogLine_complaint (rest : String) :
    isLogLine ("Could not parse expression! " ++ rest) = false := by
  rw [isLogLine, String.toList_append]
  rfl

/-- Nothing in a report can break its lines. -/
theorem Reports.arePrintable {text : String} {bodies : List String} (h : Reports text bodies) :
    ∀ body ∈ bodies, ArePrintable body.toList := by
  have hcomplaint {message : String} (hmessage : ArePrintable message.toList) :
      ArePrintable ("Could not parse expression! " ++ message).toList :=
    arePrintable_concat (arePrintable_of_ascii (by decide)) hmessage
  cases h with
  | @unread e _ => exact List.forall_mem_singleton.2 (hcomplaint e.arePrintable_message)
  | @rejected tokens e _ _ =>
    have hcount : ArePrintable ("DEBUG parser: rejected " ++ toString tokens.length).toList :=
      arePrintable_concat (arePrintable_of_ascii (by decide)) (arePrintable_toString _)
    have htokens : ArePrintable " tokens: ".toList := arePrintable_of_ascii (by decide)
    exact List.forall_mem_cons.2
      ⟨arePrintable_concat (arePrintable_concat hcount htokens) e.arePrintable_message,
        List.forall_mem_singleton.2 (hcomplaint e.arePrintable_message)⟩
  | @parsed _ e _ _ =>
    have htext : ArePrintable ("DEBUG repl: " ++ quoted text).toList :=
      arePrintable_concat (arePrintable_of_ascii (by decide)) (arePrintable_quoted text)
    have hparsed : ArePrintable " parsed as ".toList := arePrintable_of_ascii (by decide)
    exact List.forall_mem_singleton.2
      (arePrintable_concat (arePrintable_concat htext hparsed) e.arePrintable_describe)

theorem Reports.arePrintable_flatten {texts : List String} {reports : List (List String)}
    (h : List.Forall₂ Reports texts reports) :
    ∀ body ∈ reports.flatten, ArePrintable body.toList := by
  induction h with
  | nil => exact fun _ h => by contradiction
  | cons hreports _ ih => exact List.forall_mem_append.2 ⟨hreports.arePrintable, ih⟩

namespace Options

/-- No option has a say in what is complained of. -/
theorem complaint?_congr (options options' : Options) :
    options.complaint? = options'.complaint? := by
  funext text
  cases h : answer options.showTree text with
  | error failure =>
    have h' := answer_eq_error_of_error h options'.showTree
    rw [complaint?_of_error h, complaint?_of_error h']
  | ok result =>
    cases h' : answer options'.showTree text with
    | error failure =>
      rw [answer_eq_error_of_error h' options.showTree] at h
      contradiction
    | ok result' => rw [complaint?, complaint?, h, h']

/-- What is said of a text when the log is kept. -/
theorem exists_reports {options : Options} (hdebug : options.debug = true) (text : String) :
    ∃ bodies, Reports text bodies ∧ options.report text = onLines bodies ∧
      (bodies.map (· ++ "\n")).filter (fun line => !isLogLine line) =
        (options.complaint? text).toList := by
  rcases answer_cases text with ⟨e, htokens, hanswer⟩ | ⟨tokens, e, htokens, htree, hanswer⟩ |
    ⟨tokens, e, htokens, htree, hanswer⟩
  · have hcomplaint := complaint?_of_error (hanswer options.showTree)
    refine ⟨_, .unread htokens, ?_, ?_⟩
    · simp [report, hcomplaint, hdebug, logEntry, htokens, onLines, Failure.message]
    · simp [hcomplaint, isLogLine_complaint, String.append_assoc, Failure.message]
  · have hcomplaint := complaint?_of_error (hanswer options.showTree)
    have hlog (rest : String) : isLogLine ("DEBUG parser: rejected " ++ rest) = true :=
      isLogLine_append (by decide) rest
    refine ⟨_, .rejected htokens htree, ?_, ?_⟩
    · simp [report, hcomplaint, hdebug, logEntry, htokens, htree, onLines, String.append_assoc,
        Failure.message]
    · simp [hcomplaint, hlog, isLogLine_complaint, String.append_assoc, Failure.message]
  · have hcomplaint : options.complaint? text = none :=
      (options.complaint?_eq_none_iff text).2 (hanswer options.showTree)
    have hlog (rest : String) : isLogLine ("DEBUG repl: " ++ rest) = true :=
      isLogLine_append (by decide) rest
    refine ⟨_, .parsed htokens htree, ?_, ?_⟩
    · simp [report, hcomplaint, hdebug, logEntry, readEntry, htokens, htree, onLines]
    · simp [hcomplaint, hlog, String.append_assoc]

/-- What is said of texts when the log is kept. -/
theorem exists_reports_all {options : Options} (hdebug : options.debug = true)
    (texts : List String) : ∃ reports, List.Forall₂ Reports texts reports ∧
      String.join (texts.map options.report) = onLines reports.flatten ∧
      (reports.flatten.map (· ++ "\n")).filter (fun line => !isLogLine line) =
        texts.filterMap options.complaint? := by
  induction texts with
  | nil => exact ⟨[], .nil, rfl, rfl⟩
  | cons text texts ih =>
    obtain ⟨bodies, hreports, hjoin, hfilter⟩ := exists_reports hdebug text
    obtain ⟨reports, hall, hjoins, hfilters⟩ := ih
    refine ⟨bodies :: reports, .cons hreports hall, ?_, ?_⟩
    · rw [List.map_cons, String.join_cons, hjoin, hjoins, List.flatten_cons]
      simp [onLines]
    · rw [List.flatten_cons, List.map_append, List.filter_append, hfilter, hfilters]
      cases h : options.complaint? text <;> simp [h]

/-- The lines that are said of texts, with the log and without. -/
theorem textLines_reports {options options' : Options} (hdebug : options.debug = false)
    (hdebug' : options'.debug = true) (texts : List String) :
    ∃ reports, List.Forall₂ Reports texts reports ∧
      textLines (String.join (texts.map options'.report)) = reports.flatten.map (· ++ "\n") ∧
      withoutLog (String.join (texts.map options'.report)) =
        String.join (texts.map options.report) := by
  obtain ⟨reports, hall, hjoin, hfilter⟩ := exists_reports_all hdebug' texts
  have hwhole : ∀ body ∈ reports.flatten, '\n' ∉ body.toList :=
    fun body hbody => (Reports.arePrintable_flatten hall body hbody).not_mem_lineFeed
  have hlines : textLines (String.join (texts.map options'.report)) =
      reports.flatten.map (· ++ "\n") := by
    rw [hjoin, textLines_onLines hwhole]
  refine ⟨reports, hall, hlines, ?_⟩
  rw [withoutLog, hlines, hfilter, options.join_report hdebug, complaint?_congr options' options]

/-- Of the options only one has a say in what is said of a text. -/
theorem report_congr {options options' : Options} (h : options'.debug = options.debug) :
    options'.report = options.report := by
  funext text
  rw [report, report, h, complaint?_congr options' options]

/-- Of the options only one has a say in what is printed of a text. -/
theorem shown_congr {options options' : Options} (h : options'.showTree = options.showTree) :
    options'.shown = options.shown := by
  funext text
  rw [shown, shown, h]

end Options

/-! ### Options of an invocation -/

namespace CommandLine
variable {invocation invocation' : Invocation}

theorem inputs_congr (h : invocation'.expressions = invocation.expressions) (input : String) :
    invocation'.inputs input = invocation.inputs input := by
  rw [Invocation.inputs, Invocation.inputs, h]

/-- **Options do not interfere while there is room.** Take two invocations with the same
expressions, or both with none. The texts that fail are the same, each for the same reason, and if
there is room for all trees so are the exit codes. The log alone changes what is said on the
diagnostic stream, and the prompt and the trees alone what is printed. Keeping the log adds lines
to the stream that are told by how they begin: one for every text of which the tokens were found,
in front of the complaint if there is one.

To keep the log or to show trees takes room, and the first tree that there is none for ends
everything, with an exit code of its own and what was written before. -/
theorem run_by_options (room room' : Room)
    (hsame : invocation'.expressions = invocation.expressions) (input : String) :
    invocation'.inputs input = invocation.inputs input ∧
    (∀ text failure, answer invocation'.options.showTree text = .error failure ↔
      answer invocation.options.showTree text = .error failure) ∧
    ((∀ text ∈ invocation.inputs input, invocation.options.tooDeep room text = false) →
      (∀ text ∈ invocation.inputs input, invocation'.options.tooDeep room' text = false) →
      (invocation'.runWithin room' input).exitCode = (invocation.runWithin room input).exitCode ∧
      (invocation'.options.debug = invocation.options.debug →
        (invocation'.runWithin room' input).diagnostics =
          (invocation.runWithin room input).diagnostics) ∧
      (invocation'.options.showTree = invocation.options.showTree →
        invocation'.options.prompt = invocation.options.prompt →
        (invocation'.runWithin room' input).output = (invocation.runWithin room input).output) ∧
      (invocation.options.debug = false → invocation'.options.debug = true →
        withoutLog (invocation'.runWithin room' input).diagnostics =
          (invocation.runWithin room input).diagnostics ∧
        ∃ reports, List.Forall₂ Reports (invocation.inputs input) reports ∧
          textLines (invocation'.runWithin room' input).diagnostics =
            reports.flatten.map (· ++ "\n"))) ∧
    (∀ text, invocation.options.tooDeep room text = true ↔ ∃ e, Expr.ofText text = .ok e ∧
      (invocation.options.debug = true ∧ room.describing < e.height ∨
        invocation.options.showTree = true ∧ room.printing < e.height)) ∧
    ∀ before text after, invocation.inputs input = before ++ text :: after →
      (∀ text ∈ before, invocation.options.tooDeep room text = false) →
      invocation.options.tooDeep room text = true →
      (invocation.runWithin room input).exitCode = 1 ∧
      (invocation.runWithin room input).diagnostics =
        String.join (before.map invocation.options.report) ++
          invocation.options.lastEntry room text ∧
      (invocation.expressions ≠ [] → (invocation.runWithin room input).output =
        String.join (before.map invocation.options.shown)) ∧
      (invocation.expressions = [] → ∃ lines rest,
        textLines (Invocation.unified input) = lines ++ text :: rest ∧ asked lines = before ∧
          (invocation.runWithin room input).output =
            String.join (lines.map fun line =>
              invocation.options.prompt ++ invocation.options.shownLine line) ++
              invocation.options.prompt) := by
  refine ⟨inputs_congr hsame input, fun text failure =>
    ⟨fun hfail => answer_eq_error_of_error hfail _, fun hfail => answer_eq_error_of_error hfail _⟩,
    fun h h' => ?_, invocation.options.tooDeep_iff room,
    fun before text after hinputs h hdeep => ?_⟩
  · rw [← inputs_congr hsame] at h'
    rw [Invocation.runWithin_of_none h, Invocation.runWithin_of_none h']
    refine ⟨?_, fun hdebug => ?_, fun htree hprompt => ?_, fun hdebug hdebug' => ?_⟩
    · rw [Invocation.exitCode_run, Invocation.exitCode_run, inputs_congr hsame, hsame,
        Options.complaint?_congr invocation'.options invocation.options]
    · rw [Invocation.diagnostics_run, Invocation.diagnostics_run, inputs_congr hsame,
        Options.report_congr hdebug]
    · have hline : invocation'.options.shownLine = invocation.options.shownLine := by
        funext line
        rw [Options.shownLine, Options.shownLine, Options.shown_congr htree]
      rw [Invocation.output_run, Invocation.output_run, hsame, hprompt, hline,
        Options.shown_congr htree]
    · rw [Invocation.diagnostics_run, Invocation.diagnostics_run, inputs_congr hsame]
      obtain ⟨reports, hall, hlines, hwithout⟩ :=
        Options.textLines_reports hdebug hdebug' (invocation.inputs input)
      exact ⟨hwithout, reports, hall, hlines⟩
  · by_cases hsession : invocation.expressions = []
    · rw [Invocation.inputs, if_pos hsession] at hinputs
      obtain ⟨lines, rest, hlines, rfl⟩ := exists_of_asked_eq_append_cons hinputs
      rw [Invocation.runWithin_session_of_crash hsession hlines (Options.tooDeep_of_asked h) hdeep]
      exact ⟨rfl, rfl, fun hne => absurd hsession hne, fun _ => ⟨lines, rest, hlines, rfl, rfl⟩⟩
    · rw [Invocation.runWithin_expressions_of_crash hsession hinputs h hdeep]
      exact ⟨rfl, rfl, fun _ => rfl, fun hnil => absurd hnil hsession⟩

/-- A text without tokens, one without a tree and one with an answer, with the log; and a tree
that there is no room for. -/
theorem run_by_options_logged :
    withoutLog (Invocation.runWithin {} ⟨{ debug := true }, ["2 $", "1+", "4"]⟩ "").diagnostics =
        (Invocation.runWithin {} ⟨{}, ["2 $", "1+", "4"]⟩ "").diagnostics ∧
      (Invocation.runWithin {} ⟨{ debug := true }, ["2 $", "1+", "4"]⟩ "").diagnostics =
        "Could not parse expression! unexpected input at position 2: '$'\n" ++
        "DEBUG parser: rejected 2 tokens: op('+') is missing an operand\n" ++
        "Could not parse expression! op('+') is missing an operand\n" ++
        "DEBUG repl: '4' parsed as Constant(value=4.0)\n" ∧
      (Invocation.runWithin { describing := 2 } ⟨{ debug := true }, ["4", "--7", "5"]⟩ "").exitCode =
        1 ∧
      (Invocation.runWithin { describing := 2 } ⟨{ debug := true }, ["4", "--7", "5"]⟩ "").output =
        "4\n" := by
  have hroom : ∀ text ∈ ["2 $", "1+", "4"], Options.tooDeep {} { debug := true } text = false := by
    decide +kernel
  obtain ⟨-, -, hsame, -, -⟩ := @run_by_options ⟨{}, ["2 $", "1+", "4"]⟩
    ⟨{ debug := true }, ["2 $", "1+", "4"]⟩ {} {} rfl ""
  obtain ⟨-, -, -, hlog⟩ :=
    hsame (fun text _ => Options.tooDeep_eq_false _ _ rfl rfl text) hroom
  obtain ⟨-, -, -, -, hcrash⟩ := @run_by_options ⟨{ debug := true }, ["4", "--7", "5"]⟩
    ⟨{ debug := true }, ["4", "--7", "5"]⟩ { describing := 2 } {} rfl ""
  obtain ⟨hcode, -, houtput, -⟩ :=
    hcrash ["4"] "--7" ["5"] rfl (by decide +kernel) (by decide +kernel)
  refine ⟨(hlog rfl rfl).1, ?_, hcode, (houtput (by decide)).trans (by decide +kernel)⟩
  decide +kernel

/-- The log takes room that the answer does not. -/
theorem runWithin_signs {room : Room} {n : Nat} (h : room.describing ≤ n) :
    Invocation.runWithin room ⟨{ debug := true }, [signs n]⟩ "" = ⟨1, "", ""⟩ ∧
      ∃ result, Invocation.runWithin room ⟨{}, [signs n]⟩ "" = ⟨0, result ++ "\n", ""⟩ := by
  obtain ⟨result, hresult, -⟩ := Expr.shownWithin_eq room (ofText_signs n) false
  have hdeep : Options.tooDeep room { debug := true } (signs n) = true :=
    Options.tooDeep_signs (.inl ⟨rfl, h⟩)
  have hentry : Options.lastEntry room { debug := true } (signs n) = "" := by
    rw [Options.lastEntry, ofText_signs]
    simp [Expr.height_signed, Nat.not_lt.2 h]
  have hroom : ∀ text ∈ [signs n], Options.tooDeep room {} text = false :=
    fun text _ => Options.tooDeep_eq_false _ _ rfl rfl text
  constructor
  · rw [@Invocation.runWithin_expressions_of_crash room ⟨{ debug := true }, [signs n]⟩ "" [] []
      (signs n) (by simp) rfl (by simp) hdeep, hentry]
    rfl
  · have hrun := @Invocation.runWithin_of_none room ⟨{}, [signs n]⟩ "" hroom
    refine ⟨result, ?_⟩
    rw [hrun, Invocation.run_expressions _ _ (by simp)]
    simp [Options.shown, Options.report, Options.complaint?, hresult, exitCode]

/-- A tree of five thousand signs has a value, and no place in the log. -/
theorem run_of_deep_tree :
    Invocation.runWithin {} ⟨{ debug := true }, [signs 5000]⟩ "" = ⟨1, "", ""⟩ ∧
      ∃ result, Invocation.runWithin {} ⟨{}, [signs 5000]⟩ "" = ⟨0, result ++ "\n", ""⟩ :=
  runWithin_signs (by decide)

end CommandLine
end Calculator
