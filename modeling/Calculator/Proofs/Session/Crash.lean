import Calculator.Proofs.Expr.RoundTrip
import Calculator.Proofs.Session.Reply

/-! Trees that there is no room for.

A text is answered as if there were room for every tree, unless its own has too many levels for
what is asked: to be described, if the log is kept, or to be printed, if it is to be shown. That
is a crash, and nothing else is (`Options.attempt_eq`). Texts that are taken in turn are taken up
to the first crash, and what has been written by then stays (`Ending.inTurn_of_crash`).

No room is enough for all texts: a digit with many signs in front is a deep tree that anyone can
write (`ofText_signs`). -/
namespace Calculator

/-! ### In turn -/

namespace Ending
variable {take : String → Ending}

theorem andThen_of_none {ending : Ending} (h : ending.crash = none) (next : Transcript → Ending) :
    ending.andThen next = next ending.written := by
  rw [andThen, h]

theorem andThen_of_crash {ending : Ending} (h : ending.crash ≠ none) (next : Transcript → Ending) :
    ending.andThen next = ending := by
  obtain ⟨crash, hcrash⟩ := Option.ne_none_iff_exists'.1 h
  rw [andThen, hcrash]

theorem andThen_andThen (ending : Ending) (f g : Transcript → Ending) :
    (ending.andThen f).andThen g = ending.andThen fun written => (f written).andThen g := by
  by_cases h : ending.crash = none
  · rw [andThen_of_none h, andThen_of_none h]
  · rw [andThen_of_crash h, andThen_of_crash h, andThen_of_crash h]

theorem after_after (ending : Ending) (a b : Transcript) :
    (ending.after b).after a = ending.after (a ++ b) := by
  rw [after, after, after, Transcript.append_assoc]

/-- What was written before does not matter to what only adds to it. -/
theorem after_andThen {next : Transcript → Ending}
    (h : ∀ a b, next (a ++ b) = (next b).after a) (ending : Ending) (written : Transcript) :
    (ending.after written).andThen next = (ending.andThen next).after written := by
  by_cases hcrash : ending.crash = none
  · have hafter : (ending.after written).crash = none := hcrash
    rw [andThen_of_none hcrash, andThen_of_none hafter, ← h]
    rfl
  · have hafter : (ending.after written).crash ≠ none := hcrash
    rw [andThen_of_crash hcrash, andThen_of_crash hafter]

theorem inTurn_append (xs ys : List String) (written : Transcript) :
    inTurn take (xs ++ ys) written = (inTurn take xs written).andThen (inTurn take ys) := by
  induction xs generalizing written with
  | nil => rfl
  | cons x xs ih =>
    rw [List.cons_append, inTurn, inTurn, andThen_andThen]
    exact congrArg _ (funext ih)

theorem inTurn_eq_after (xs : List String) (a b : Transcript) :
    inTurn take xs (a ++ b) = (inTurn take xs b).after a := by
  induction xs generalizing a b with
  | nil => rfl
  | cons x xs ih =>
    rw [inTurn, inTurn, ← after_after]
    exact after_andThen ih _ _

/-- Without a crash all are taken. -/
theorem inTurn_of_none {xs : List String} (h : ∀ x ∈ xs, (take x).crash = none)
    (written : Transcript) :
    inTurn take xs written =
      { written := written ++ .join (xs.map fun x => (take x).written) } := by
  induction xs generalizing written with
  | nil =>
    show _ = ({ written := written ++ {} } : Ending)
    rw [Transcript.append_empty]
    rfl
  | cons x xs ih =>
    obtain ⟨hx, hxs⟩ := List.forall_mem_cons.1 h
    have hafter : ((take x).after written).crash = none := hx
    rw [inTurn, andThen_of_none hafter, ih hxs, List.map_cons, Transcript.join_cons,
      ← Transcript.append_assoc]
    rfl

/-- A crash is the end, whatever would have come after. -/
theorem inTurn_of_crash {before : List String} (h : ∀ x ∈ before, (take x).crash = none)
    {x : String} (hx : (take x).crash ≠ none) (after : List String) (written : Transcript) :
    inTurn take (before ++ x :: after) written =
      { written := written ++ .join (before.map fun x => (take x).written) ++ (take x).written
        crash := (take x).crash } := by
  have hafter (written : Transcript) : ((take x).after written).crash ≠ none := hx
  rw [inTurn_append, inTurn_of_none h, andThen_of_none rfl, inTurn, andThen_of_crash (hafter _)]
  rfl

end Ending

/-! ### Texts -/

namespace Options
variable (room : Room) (options : Options)

/-- Whether there is no room for the tree of a text. -/
def tooDeep (text : String) : Bool :=
  match Expr.ofText text with
  | .ok e =>
    options.debug && room.describing < e.height || options.showTree && room.printing < e.height
  | .error _ => false

/-- What the log says of a text before there is no room to show its tree. -/
def lastEntry (text : String) : String :=
  match Expr.ofText text with
  | .ok e => if options.debug && e.height ≤ room.describing then logEntry text else ""
  | .error _ => ""

theorem lastEntry_of_debug (h : options.debug = false) (text : String) :
    options.lastEntry room text = "" := by
  unfold lastEntry
  cases Expr.ofText text <;> simp [h]

theorem tooDeep_iff (text : String) : options.tooDeep room text = true ↔
    ∃ e, Expr.ofText text = .ok e ∧ (options.debug = true ∧ room.describing < e.height ∨
      options.showTree = true ∧ room.printing < e.height) := by
  unfold tooDeep
  cases Expr.ofText text <;> simp

/-- There is room for the tree of a text if nothing asks for a way through it. -/
theorem tooDeep_eq_false (hdebug : options.debug = false) (htree : options.showTree = false)
    (text : String) : options.tooDeep room text = false := by
  unfold tooDeep
  cases Expr.ofText text <;> simp [hdebug, htree]

theorem tooDeep_of_isBlankLine {line : String} (h : isBlankLine line = true) :
    options.tooDeep room line = false := by
  have hread : Expr.ofText line = .error (.malformed (.expectedOne 0)) := by
    rw [Expr.ofText_of_tokens ((isBlankLine_iff_tokenize line).1 h)]
    rfl
  rw [tooDeep, hread]

end Options

section
variable (room : Room) {text : String} {e : Expr}

theorem logEntry_of_ofText (h : Expr.ofText text = .ok e) :
    logEntry text = readEntry text e.describe := by
  obtain ⟨tokens, htokens, he⟩ := Expr.exists_tokens_of_ofText h
  rw [logEntry, htokens]
  dsimp only
  rw [he]

theorem Expr.loggedWithin_eq (h : ofText text = .ok e) (debug : Bool) :
    e.loggedWithin room debug text = if debug && room.describing < e.height then .error .tooDeep
      else .ok (if debug then logEntry text else "") := by
  rw [loggedWithin, describeWithin_eq, logEntry_of_ofText h]
  cases debug with
  | false => rfl
  | true => by_cases hroom : room.describing < e.height <;> simp [hroom, Nat.not_le.2, Nat.not_lt.1]

theorem Expr.shownWithin_eq (h : ofText text = .ok e) (showTree : Bool) :
    ∃ result, answer showTree text = .ok result ∧ e.shownWithin room showTree =
      if showTree && room.printing < e.height then .error .tooDeep else .ok result := by
  cases showTree with
  | true =>
    refine ⟨e.print, by rw [answer, h]; rfl, ?_⟩
    rw [shownWithin, printWithin_eq]
    by_cases hroom : room.printing < e.height <;> simp [hroom, Nat.not_le.2, Nat.not_lt.1]
  | false =>
    obtain ⟨tokens, -, he⟩ := exists_tokens_of_ofText h
    obtain ⟨value, hvalue⟩ := exists_evaluate (isGenuine_of_ofTokens he)
    have hshown : e.shownWithin room false = .ok (Numeral.canonical value) := by
      show (e.evaluate.mapError Crash.evaluation >>= fun value => .ok (Numeral.canonical value)) = _
      rw [hvalue]
      rfl
    refine ⟨Numeral.canonical value, ?_, hshown⟩
    rw [answer, h]
    show (e.evaluate.mapError Failure.evaluation >>= fun value => .ok (Numeral.canonical value)) = _
    rw [hvalue]
    rfl

end

namespace Options

/-- **A text is answered, unless there is no room for its tree.** -/
theorem attempt_eq (room : Room) (options : Options) (text : String) : options.attempt room text =
    if options.tooDeep room text then
      { written := { diagnostics := options.lastEntry room text }, crash := some .tooDeep }
    else { written := options.reply text } := by
  cases h : Expr.ofText text with
  | error failure => simp [attempt, tooDeep, reply, answer_of_error h, h]
  | ok e =>
    obtain ⟨result, hanswer, hshown⟩ := Expr.shownWithin_eq room h options.showTree
    have hlogged := Expr.loggedWithin_eq room h options.debug
    have hroom : decide (e.height ≤ room.describing) = !decide (room.describing < e.height) :=
      (decide_eq_decide.2 Nat.not_lt.symm).trans decide_not
    simp only [attempt, tooDeep, lastEntry, reply, h, hanswer, hlogged, hshown, hroom]
    -- The log is asked for its description first, and then the answer.
    cases hlog : options.debug && decide (room.describing < e.height) with
    | true =>
      obtain ⟨hdebug, hlt⟩ := Bool.and_eq_true_iff.1 hlog
      simp [hlt]
    | false =>
      have hentry : (if (options.debug && !decide (room.describing < e.height)) = true then
          logEntry text else "") = if options.debug = true then logEntry text else "" := by
        cases hdebug : options.debug <;> simp_all
      rw [hentry]
      cases hshow : options.showTree && decide (room.printing < e.height) <;> rfl

theorem crash_attempt (room : Room) (options : Options) (text : String) :
    (options.attempt room text).crash =
      if options.tooDeep room text then some .tooDeep else none := by
  rw [attempt_eq]
  cases options.tooDeep room text <;> rfl

section
variable {room : Room} {options : Options}

theorem crash_attempt_eq_none {text : String} (h : options.tooDeep room text = false) :
    (options.attempt room text).crash = none := by
  rw [crash_attempt, h]
  rfl

theorem map_attempt {texts : List String} (h : ∀ text ∈ texts, options.tooDeep room text = false) :
    texts.map (fun text => (options.attempt room text).written) = texts.map options.reply := by
  refine List.map_congr_left fun text htext => ?_
  rw [attempt_eq, h text htext]
  rfl

theorem answerAll_of_none {texts : List String}
    (h : ∀ text ∈ texts, options.tooDeep room text = false) :
    options.answerAll room texts = { written := .join (texts.map options.reply) } := by
  have hnone := fun text htext => crash_attempt_eq_none (h text htext)
  rw [answerAll, Ending.inTurn_of_none hnone, map_attempt h, Transcript.empty_append]

theorem answerAll_of_crash {before : List String} {text : String}
    (h : ∀ text ∈ before, options.tooDeep room text = false)
    (hdeep : options.tooDeep room text = true) (after : List String) :
    options.answerAll room (before ++ text :: after) =
      { written := .join (before.map options.reply) ++
          { diagnostics := options.lastEntry room text }
        crash := some .tooDeep } := by
  have hnone := fun text htext => crash_attempt_eq_none (h text htext)
  have htext : options.attempt room text =
      { written := { diagnostics := options.lastEntry room text }, crash := some .tooDeep } := by
    rw [attempt_eq, hdeep]
    rfl
  have hcrash : (options.attempt room text).crash ≠ none := by
    rw [htext]
    simp
  rw [answerAll, Ending.inTurn_of_crash hnone hcrash, map_attempt h, Transcript.empty_append, htext]

end

end Options

/-! ### Deep trees -/

/-- A digit under so many signs. -/
def Expr.signed : Nat → Expr
  | 0 => .constant 7
  | n + 1 => .unary .minus (signed n)

/-- A digit with so many signs in front. -/
def signs (n : Nat) : String :=
  String.ofList (List.replicate n '-' ++ ['7'])

namespace Expr

theorem print_signed (n : Nat) : (signed n).print = signs n := by
  induction n with
  | zero => decide +kernel
  | succ n ih =>
    have hbare : (signed n).needsParensAfterSign = false := by cases n <;> rfl
    have hsigns : signs (n + 1) = String.singleton '-' ++ signs n := by
      rw [signs, signs, String.singleton_eq_ofList, ← String.ofList_append]
      rfl
    rw [signed, print, hbare, ih, hsigns]
    rfl

theorem height_signed (n : Nat) : (signed n).height = n + 1 := by
  induction n with
  | zero => rfl
  | succ n ih => rw [signed, height, ih]

theorem constants_signed (n : Nat) : (signed n).constants = [7] := by
  induction n with
  | zero => rfl
  | succ n ih => exact ih

theorem isGenuine_signed (n : Nat) : (signed n).IsGenuine := by
  induction n with
  | zero => trivial
  | succ n ih => exact ih

end Expr

theorem ofText_signs (n : Nat) : Expr.ofText (signs n) = .ok (.signed n) := by
  have hfinite : ∀ x ∈ (Expr.signed n).constants, Binary64.IsFinite x := by
    rw [Expr.constants_signed, List.forall_mem_singleton]
    exact Binary64.isFinite_iff.1 (by decide)
  have hnorm : (Expr.signed n).norm = .signed n := by
    rw [Expr.norm_eq_self_iff hfinite, Expr.constants_signed]
    decide
  rw [← Expr.print_signed, Expr.ofText_print (Expr.isGenuine_signed n) hfinite, hnorm]

/-- More signs than there is room for. -/
theorem Options.tooDeep_signs {room : Room} {options : Options} {n : Nat}
    (h : options.debug = true ∧ room.describing ≤ n ∨
      options.showTree = true ∧ room.printing ≤ n) : options.tooDeep room (signs n) = true := by
  refine (options.tooDeep_iff room _).2 ⟨_, ofText_signs n, ?_⟩
  rw [Expr.height_signed]
  exact h.imp (And.imp_right Nat.lt_succ_of_le) (And.imp_right Nat.lt_succ_of_le)

end Calculator
