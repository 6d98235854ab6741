import Calculator.Proofs.Calculation
import Calculator.Proofs.Token.Munch
import Calculator.Session

/-! What is written for texts.

Of a text it matters what is shown of it, whether there is a complaint and, if that is asked
for, what the log says. What is written for many texts is that of each in turn, stream by
stream: for texts that are all replied to (`join_reply`) and for lines, of which the blank
ones only bring on the next prompt (`join_turn`). -/
namespace Calculator

/-! ### Transcripts -/

namespace Transcript

attribute [ext] Transcript

@[simp] theorem empty_append (t : Transcript) : {} ++ t = t := by
  ext1 <;> simp

@[simp] theorem append_empty (t : Transcript) : t ++ {} = t := by
  ext1 <;> simp

theorem append_assoc (a b c : Transcript) : a ++ b ++ c = a ++ (b ++ c) := by
  ext1
  · exact String.append_assoc
  · exact String.append_assoc
  · exact Nat.add_assoc ..

theorem foldl_append (t : Transcript) (ts : List Transcript) :
    ts.foldl (· ++ ·) t = t ++ join ts := by
  induction ts generalizing t with
  | nil => exact (append_empty t).symm
  | cons u us ih =>
    rw [List.foldl_cons, ih]
    show t ++ u ++ join us = t ++ us.foldl (· ++ ·) ({} ++ u)
    rw [ih, empty_append, append_assoc]

@[simp] theorem join_cons (t : Transcript) (ts : List Transcript) :
    join (t :: ts) = t ++ join ts := by
  rw [join, List.foldl_cons, empty_append, foldl_append]

end Transcript

/-! ### Texts -/

def isBlankLine (line : String) : Bool :=
  line.toList.all Text.isBlank

theorem isBlankLine_iff (line : String) :
    isBlankLine line = true ↔ Text.skipBlanks line.toList = [] := by
  rw [isBlankLine, List.all_eq_true, Text.skipBlanks, List.dropWhile_eq_nil_iff]

theorem tokenize_eq_nil_iff (text : String) :
    tokenize text = .ok [] ↔ Text.skipBlanks text.toList = [] := by
  rw [tokenize_eq_ok_iff]
  cases hread : Token.read? (Text.skipBlanks text.toList) with
  | none =>
    rw [Token.scan_of_none hread]
    simp
  | some p =>
    rw [Token.scan_of_some hread]
    refine iff_of_false (fun h => by cases h) fun hnil => ?_
    rw [hnil] at hread
    contradiction

theorem isBlankLine_iff_tokenize (line : String) :
    isBlankLine line = true ↔ tokenize line = .ok [] :=
  (isBlankLine_iff line).trans (tokenize_eq_nil_iff line).symm

/-- The lines that call for an answer. -/
def asked (lines : List String) : List String :=
  lines.filter fun line => !isBlankLine line

theorem join_filterMap {α : Type} (f : α → Option String) (xs : List α) :
    String.join (xs.filterMap f) = String.join (xs.map fun x => (f x).getD "") := by
  induction xs with
  | nil => rfl
  | cons x xs ih => cases h : f x <;> simp [h, ih]

namespace Options
variable (options : Options)

/-- What is printed of a text. -/
def shown (text : String) : String :=
  match answer options.showTree text with
  | .ok result => result ++ "\n"
  | .error _ => ""

/-- The complaint about a text that has no answer. -/
def complaint? (text : String) : Option String :=
  match answer options.showTree text with
  | .ok _ => none
  | .error failure => some ("Could not parse expression! " ++ failure.message ++ "\n")

variable {options} in
theorem complaint?_of_error {text : String} {failure : Failure}
    (h : answer options.showTree text = .error failure) : options.complaint? text =
      some ("Could not parse expression! " ++ failure.message ++ "\n") := by
  rw [complaint?, h]

theorem complaint?_eq_none_iff (text : String) :
    options.complaint? text = none ↔ ∃ result, answer options.showTree text = .ok result := by
  cases h : answer options.showTree text <;> simp [complaint?, h]

/-- All that is said of a text on the diagnostic stream. -/
def report (text : String) : String :=
  (if options.debug then logEntry text else "") ++ (options.complaint? text).getD ""

theorem reply_eq (text : String) : options.reply text =
    ⟨options.shown text, options.report text, (options.complaint? text).toList.length⟩ := by
  cases h : answer options.showTree text with
  | ok result => simp [reply, shown, report, complaint?, h]
  | error failure => simp [reply, shown, report, complaint?, h, String.append_assoc]

theorem join_reply (texts : List String) : Transcript.join (texts.map options.reply) =
    ⟨String.join (texts.map options.shown), String.join (texts.map options.report),
      (texts.filterMap options.complaint?).length⟩ := by
  induction texts with
  | nil => rfl
  | cons text texts ih =>
    rw [List.map_cons, Transcript.join_cons, ih, reply_eq]
    ext1
    · simp
    · simp
    · cases h : options.complaint? text <;> simp [h, Nat.add_comm]

/-- Without the log there are the complaints alone. -/
theorem join_report (hdebug : options.debug = false) (texts : List String) :
    String.join (texts.map options.report) = String.join (texts.filterMap options.complaint?) := by
  rw [join_filterMap]
  congr 2
  funext text
  simp [report, hdebug]

/-! ### Lines -/

/-- What is printed of a line. -/
def shownLine (line : String) : String :=
  if isBlankLine line then "" else options.shown line

theorem join_turn (lines : List String) : Transcript.join (lines.map options.turn) =
    ⟨String.join (lines.map fun line => options.prompt ++ options.shownLine line),
      String.join ((asked lines).map options.report),
      ((asked lines).filterMap options.complaint?).length⟩ := by
  induction lines with
  | nil => rfl
  | cons line lines ih =>
    rw [List.map_cons, Transcript.join_cons, ih, turn]
    by_cases hblank : isBlankLine line = true
    · have hrespond : options.respond line = {} := if_pos hblank
      rw [hrespond]
      ext1 <;> simp [asked, shownLine, hblank, Transcript.ofOutput]
    · have hrespond : options.respond line = options.reply line := if_neg hblank
      rw [hrespond, reply_eq]
      ext1
      · simp [shownLine, hblank, Transcript.ofOutput]
      · simp [asked, hblank, Transcript.ofOutput]
      · cases h : options.complaint? line <;>
          simp [asked, hblank, h, Transcript.ofOutput, Nat.add_comm]

end Options
end Calculator
