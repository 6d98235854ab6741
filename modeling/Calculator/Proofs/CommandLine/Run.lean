import Calculator.Invocation
import Calculator.Proofs.Session.Loop

/-! What an invocation comes to.

There are texts to answer: the expressions or, if there are none, the lines of the input that
are not blank (`inputs`). With room for all their trees the diagnostics are the reports on these
texts (`diagnostics_run`), and the exit code counts the complaints among them, but in a session
nobody counts (`exitCode_run`). The first tree that there is no room for ends the run
(`runWithin_expressions_of_crash`, `runWithin_session_of_crash`). -/
namespace Calculator.CommandLine
open Text

/-! ### Exit codes -/

theorem exitCode_complaints_eq_zero_iff (options : Options) (texts : List String) :
    exitCode (texts.filterMap options.complaint?).length = 0 ↔
      ∀ text ∈ texts, ∃ result, answer options.showTree text = .ok result := by
  have hcode (n : Nat) : exitCode n = 0 ↔ n = 0 := by
    unfold exitCode
    split <;> simp_all
  rw [hcode, List.length_eq_zero_iff, List.filterMap_eq_nil_iff]
  exact forall₂_congr fun text _ => options.complaint?_eq_none_iff text

theorem exitCode_complaints_eq_one_iff (options : Options) (texts : List String) :
    exitCode (texts.filterMap options.complaint?).length = 1 ↔
      ∃ text ∈ texts, ∃ failure, answer options.showTree text = .error failure := by
  have hcode (n : Nat) : exitCode n = 1 ↔ ¬ exitCode n = 0 := by
    unfold exitCode
    split <;> simp
  have hfails (text : String) : (∃ failure, answer options.showTree text = .error failure) ↔
      ¬ ∃ result, answer options.showTree text = .ok result := by
    cases answer options.showTree text <;> simp
  simp only [hcode, exitCode_complaints_eq_zero_iff, hfails, Classical.not_forall, exists_prop]

/-! ### Running -/

namespace Invocation

/-- The input of a session, whatever its lines end in. -/
def unified (input : String) : String :=
  String.ofList (unifyLineEnds input.toList)

/-- The texts that are answered. -/
def inputs (invocation : Invocation) (input : String) : List String :=
  if invocation.expressions = [] then asked (textLines (unified input)) else invocation.expressions

variable (invocation : Invocation) (input : String)

theorem run_session (h : invocation.expressions = []) :
    invocation.run input = ⟨0, (invocation.options.session (unified input)).output,
      (invocation.options.session (unified input)).diagnostics⟩ :=
  if_pos h

theorem run_expressions (h : invocation.expressions ≠ []) :
    invocation.run input =
      ⟨exitCode (invocation.expressions.filterMap invocation.options.complaint?).length,
        String.join (invocation.expressions.map invocation.options.shown),
        String.join (invocation.expressions.map invocation.options.report)⟩ := by
  rw [Invocation.run, if_neg h, Options.join_reply]

theorem output_run : (invocation.run input).output =
    if invocation.expressions = [] then
      String.join ((textLines (unified input)).map fun line =>
        invocation.options.prompt ++ invocation.options.shownLine line) ++
        (invocation.options.prompt ++ "\n")
    else String.join (invocation.expressions.map invocation.options.shown) := by
  by_cases h : invocation.expressions = []
  · rw [run_session _ _ h, if_pos h, Options.session_eq]
  · rw [run_expressions _ _ h, if_neg h]

theorem diagnostics_run : (invocation.run input).diagnostics =
    String.join ((invocation.inputs input).map invocation.options.report) := by
  by_cases h : invocation.expressions = []
  · rw [run_session _ _ h, inputs, if_pos h, Options.session_eq]
  · rw [run_expressions _ _ h, inputs, if_neg h]

theorem exitCode_run : (invocation.run input).exitCode =
    if invocation.expressions = [] then 0
    else exitCode ((invocation.inputs input).filterMap invocation.options.complaint?).length := by
  by_cases h : invocation.expressions = []
  · rw [run_session _ _ h, if_pos h]
  · rw [run_expressions _ _ h, if_neg h, inputs, if_neg h]

/-! ### Running with little room -/

section
variable {room : Room} {invocation : Invocation} {input : String}

theorem runWithin_of_none
    (h : ∀ text ∈ invocation.inputs input, invocation.options.tooDeep room text = false) :
    invocation.runWithin room input = invocation.run input := by
  by_cases hsession : invocation.expressions = []
  · rw [inputs, if_pos hsession] at h
    have hlines : ∀ line ∈ textLines (unified input),
        invocation.options.tooDeep room line = false := Options.tooDeep_of_asked h
    have hending : invocation.ending room input =
        { written := invocation.options.session (unified input) } := by
      rw [ending, if_pos hsession]
      exact Options.sessionWithin_of_none hlines
    rw [runWithin, hending, run_session _ _ hsession]
    simp [hsession]
  · rw [inputs, if_neg hsession] at h
    have hending : invocation.ending room input =
        { written := .join (invocation.expressions.map invocation.options.reply) } := by
      rw [ending, if_neg hsession, Options.answerAll_of_none h]
    rw [runWithin, hending, run, if_neg hsession]
    simp [hsession]

variable {before after : List String} {text : String}

theorem runWithin_expressions_of_crash (hne : invocation.expressions ≠ [])
    (hinputs : invocation.inputs input = before ++ text :: after)
    (h : ∀ text ∈ before, invocation.options.tooDeep room text = false)
    (hdeep : invocation.options.tooDeep room text = true) : invocation.runWithin room input =
      ⟨crashExitCode, String.join (before.map invocation.options.shown),
        String.join (before.map invocation.options.report) ++
          invocation.options.lastEntry room text⟩ := by
  rw [inputs, if_neg hne] at hinputs
  rw [runWithin, ending, if_neg hne, hinputs, Options.answerAll_of_crash h hdeep,
    Options.join_reply]
  simp

theorem runWithin_session_of_crash (hsession : invocation.expressions = [])
    (hlines : textLines (unified input) = before ++ text :: after)
    (h : ∀ line ∈ before, invocation.options.tooDeep room line = false)
    (hdeep : invocation.options.tooDeep room text = true) : invocation.runWithin room input =
      ⟨crashExitCode,
        String.join (before.map fun line =>
          invocation.options.prompt ++ invocation.options.shownLine line) ++
          invocation.options.prompt,
        String.join ((asked before).map invocation.options.report) ++
          invocation.options.lastEntry room text⟩ := by
  have hending := Options.sessionWithin_of_crash hlines h hdeep
  rw [unified] at hending
  rw [runWithin, ending, if_pos hsession, hending, Options.join_turn]
  simp [Transcript.ofOutput]

end

end Invocation
end Calculator.CommandLine
