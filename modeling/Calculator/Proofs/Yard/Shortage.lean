import Calculator.Proofs.Yard.Counter
import Calculator.Proofs.Yard.Grammar

/-! What is missing where the tokens end.

A list that ends where an operand has to come holds as many operands as operators that
join two, so in the end one operator runs short. Applied from the last one on, the others
find their operands, if need be those of a group further out; it is the outermost that
does not, unless a parenthesis still open is reached before it (`drain_outermost`).

Which operator that is can be read off the tokens. In every group that is open the entries
bind tighter from the outermost to the innermost, so the group has a root that an operator
read later displaces or leaves as it is (`BinaryOp.newRoot`), and a scan keeps track of
the roots (`roots_run`). -/
namespace Calculator
open Calculator.Frame

/-! ### The outermost operator -/

namespace Yard

theorem joints_append (inner outer : List Entry) :
    joints (inner ++ outer) = joints inner + joints outer := by
  induction inner with
  | nil => exact (Nat.zero_add _).symm
  | cons entry inner ih => rw [List.cons_append, joints_cons, ih, joints_cons entry inner, Nat.add_assoc]

theorem joints_eq_zero_iff (entries : List Entry) :
    joints entries = 0 ↔ ∀ op, Entry.operator (.binary op) ∉ entries := by
  induction entries with
  | nil => simp [joints]
  | cons entry entries ih =>
    rw [joints_cons, Nat.add_eq_zero_iff, ih]
    rcases entry with (_ | op) | _ <;> simp [joints, forall_and]

theorem exists_outermost {entries : List Entry} (h : joints entries ≠ 0) :
    ∃ inner op outer, entries = inner ++ .operator (.binary op) :: outer ∧ joints outer = 0 := by
  induction entries with
  | nil => contradiction
  | cons entry entries ih =>
    by_cases hzero : joints entries = 0
    · rcases entry with (_ | op) | _
      · contradiction
      · exact ⟨[], op, entries, rfl, hzero⟩
      · contradiction
    · obtain ⟨inner, op, outer, rfl, houter⟩ := ih hzero
      exact ⟨entry :: inner, op, outer, rfl, houter⟩

/-- All operators inside find their operands, even those of another group; the outermost has one
only. -/
theorem drain_outermost {operands : List Expr} {inner outer : List Entry} (op : BinaryOp)
    (hlength : operands.length = joints inner + 1) :
    drain operands (inner ++ .operator (.binary op) :: outer) =
      .error (if .paren ∈ inner then .unmatchedOpen else .missingOperand (.binary op)) := by
  induction inner generalizing operands with
  | nil =>
    obtain ⟨e, rfl⟩ := List.length_eq_one_iff.1 hlength
    rfl
  | cons entry inner ih =>
    rcases entry with (sign | a) | _
    · obtain ⟨e, rest, rfl⟩ := List.exists_cons_of_length_eq_add_one hlength
      have hrest : (Expr.unary sign e :: rest).length = joints inner + 1 := hlength
      simpa [drain, bind, Except.bind] using ih hrest
    · obtain ⟨r, below, rfl⟩ := List.exists_cons_of_length_eq_add_one hlength
      have hbelow : below.length = joints inner + 1 := Nat.succ.inj hlength
      obtain ⟨l, rest, rfl⟩ := List.exists_cons_of_length_eq_add_one hbelow
      have hrest : (Expr.binary a l r :: rest).length = joints inner + 1 := hbelow
      simpa [drain, bind, Except.bind] using ih hrest
    · simp [drain]

end Yard

/-! ### Roots of the open groups -/

/-- The root of a group after another of its operators: that operator if the root comes before it,
and else the root as it was. -/
def BinaryOp.newRoot (op : BinaryOp) : Option BinaryOp → BinaryOp
  | some root => if (Operator.binary root).leftFirst (.binary op) then op else root
  | none => op

/-- What a token makes of the roots of the open groups, which are listed from the innermost. -/
def Counter.nextRoots (c : Counter) (roots : List (Option BinaryOp)) :
    Token → List (Option BinaryOp)
  | .operator symbol =>
    if c.expecting then roots
    else roots.modifyHead fun root? => some ((BinaryOp.ofSymbol symbol).newRoot root?)
  | .openParen => none :: roots
  | .closeParen => roots.tail
  | _ => roots

/-- The roots after a list of tokens. -/
def Counter.runRoots (c : Counter) (roots : List (Option BinaryOp)) :
    List Token → List (Option BinaryOp)
  | [] => roots
  | token :: tokens => (c.next token).runRoots (c.nextRoots roots token) tokens

/-- The outermost operator between operands of each open group, from the innermost group. -/
def Yard.roots : List Entry → List (Option BinaryOp)
  | [] => [none]
  | .paren :: entries => none :: roots entries
  | .operator (.unary _) :: entries => roots entries
  | .operator (.binary op) :: entries =>
    (roots entries).modifyHead fun root? => some (root?.getD op)

namespace Yard

theorem exists_roots (entries : List Entry) : ∃ root? rest, roots entries = root? :: rest := by
  induction entries with
  | nil => exact ⟨_, _, rfl⟩
  | cons entry entries ih =>
    obtain ⟨root?, rest, h⟩ := ih
    rcases entry with (_ | _) | _
    · exact ⟨root?, rest, h⟩
    · exact ⟨_, rest, by rw [roots, h]; rfl⟩
    · exact ⟨_, _, rfl⟩

theorem roots_of_joints {entries : List Entry} (h : joints entries = 0) :
    ∀ root? ∈ roots entries, root? = none := by
  induction entries with
  | nil => simp [roots]
  | cons entry entries ih =>
    rcases entry with (_ | _) | _
    · exact ih h
    · contradiction
    · simpa [roots] using ih h

/-- The outermost operator is a root, and the groups further out have none. -/
theorem roots_outermost (inner : List Entry) (op : BinaryOp) {outer : List Entry}
    (houter : joints outer = 0) :
    if .paren ∈ inner then
      ∃ root? ∈ (roots (inner ++ .operator (.binary op) :: outer)).tail, root? ≠ none
    else
      ∃ rest, roots (inner ++ .operator (.binary op) :: outer) = some op :: rest ∧
        ∀ root? ∈ rest, root? = none := by
  induction inner with
  | nil =>
    obtain ⟨root?, rest, hroots⟩ := exists_roots outer
    have hnone := roots_of_joints houter
    simp only [hroots, List.forall_mem_cons] at hnone
    refine ⟨rest, ?_, hnone.2⟩
    rw [List.nil_append, roots, hroots, hnone.1]
    rfl
  | cons entry inner ih =>
    rcases entry with (sign | a) | _
    · simpa [roots] using ih
    · by_cases hparen : Entry.paren ∈ inner
      · simpa [roots, hparen] using ih
      · rw [if_neg hparen] at ih
        obtain ⟨rest, hroots, hrest⟩ := ih
        rw [if_neg (by simpa using hparen)]
        refine ⟨rest, ?_, hrest⟩
        rw [List.cons_append, roots, hroots]
        rfl
    · rw [if_pos (List.mem_cons_self ..)]
      show ∃ root? ∈ roots (inner ++ .operator (.binary op) :: outer), root? ≠ none
      by_cases hparen : Entry.paren ∈ inner
      · rw [if_pos hparen] at ih
        obtain ⟨root?, hmem, hne⟩ := ih
        exact ⟨root?, List.mem_of_mem_tail hmem, hne⟩
      · rw [if_neg hparen] at ih
        obtain ⟨rest, hroots, -⟩ := ih
        exact ⟨some op, by rw [hroots]; exact List.mem_cons_self .., by simp⟩

end Yard

/-- In each open group the entries bind tighter from the outermost on. -/
theorem Opens.level_root_le {ts : List Token} {frames : List Frame} (hopens : Opens ts frames)
    {p : Phrase} (hadmits : Admits frames p) {root : BinaryOp} {rest : List (Option BinaryOp)}
    (hroots : Yard.roots (frames.map Frame.entry) = some root :: rest) :
    root.right.level ≤ p.level := by
  induction hopens generalizing p root rest with
  | nil => simp [Yard.roots] at hroots
  | paren => simp [Yard.roots, Frame.entry] at hroots
  | unary op => exact Nat.le_trans root.level_right_le_signed (hadmits (.unary op) rfl)
  | @binary ts ls frames l a hopens hphrase hl ih =>
    have ha : a.right.level ≤ p.level := hadmits (.binary a) rfl
    obtain ⟨root?, outer, houter⟩ := Yard.exists_roots (frames.map Frame.entry)
    rw [List.map_cons, Frame.entry, Yard.roots, houter] at hroots
    cases root? with
    | none =>
      cases hroots
      exact ha
    | some root' =>
      cases hroots
      exact Nat.le_trans (ih hphrase houter) (Nat.le_trans a.level_phrase_le_right ha)

/-- Closing frames for an operator displaces the root or leaves it, as the two operators say. -/
theorem Opens.roots_close {ts : List Token} {frames : List Frame} (hopens : Opens ts frames)
    (op : BinaryOp) (e : Expr) :
    Yard.roots (.operator (.binary op) :: (Frame.close (·.leftFirst (.binary op)) e frames).2.map
      Frame.entry) =
      (Yard.roots (frames.map Frame.entry)).modifyHead fun root? => some (op.newRoot root?) := by
  induction hopens generalizing e with
  | nil => rfl
  | paren => rfl
  | unary sign hopens ih =>
    have hacts : (Operator.unary sign).leftFirst (.binary op) = true :=
      op.leftFirst_of_level_left_le op.level_left_le_signed
    rw [close_cons_of_acts (p := (·.leftFirst (.binary op))) rfl hacts]
    exact ih _
  | @binary ts ls frames l a hopens hphrase hl ih =>
    obtain ⟨root?, outer, houter⟩ := Yard.exists_roots (frames.map Frame.entry)
    have hroots : Yard.roots ((Frame.binary l a :: frames).map Frame.entry) =
        some (root?.getD a) :: outer := by
      rw [List.map_cons, Frame.entry, Yard.roots, houter]
      rfl
    by_cases hacts : (Operator.binary a).leftFirst (.binary op) = true
    · rw [close_cons_of_acts (p := (·.leftFirst (.binary op))) rfl hacts, ih, houter, hroots]
      cases root? with
      | none => simp [BinaryOp.newRoot, hacts]
      | some root => rfl
    · -- A root further out comes before the operator even less.
      rw [close_of_holds (by simpa [Holds, operator?] using hacts), Yard.roots, hroots]
      cases root? with
      | none => simp [BinaryOp.newRoot, hacts]
      | some root =>
        have hroot := hopens.level_root_le hphrase houter
        have ha := a.level_phrase_le_right
        have hstays : (Operator.binary root).leftFirst (.binary op) = false := by
          rw [Operator.leftFirst_eq_right, decide_eq_true_eq] at hacts
          rw [Operator.leftFirst_eq_right, decide_eq_false_iff_not]
          have : (Operator.binary a).operand = a.right := rfl
          have : (Operator.binary root).operand = root.right := rfl
          simp_all only
          omega
        simp [BinaryOp.newRoot, hstays]

theorem Frame.roots_close_all {e e' : Expr} {frames outer : List Frame}
    (h : close (fun _ => true) e frames = (e', .paren :: outer)) :
    Yard.roots (outer.map Frame.entry) = (Yard.roots (frames.map Frame.entry)).tail := by
  induction frames generalizing e with
  | nil => simp [close] at h
  | cons frame frames ih =>
    cases frame with
    | unary op =>
      rw [close_cons_of_acts rfl rfl] at h
      exact ih h
    | binary l op =>
      rw [close_cons_of_acts rfl rfl] at h
      rw [ih h, List.map_cons, Frame.entry, Yard.roots, List.tail_modifyHead]
    | paren =>
      cases h
      rfl

/-- The scan keeps track of the roots. -/
theorem Reads.roots_step {ts : List Token} {token : Token} {y y' : Yard} {c : Counter}
    (h : Reads ts y) (hagrees : c.Agrees y) (hstep : y.step token = .ok y') :
    Yard.roots y'.entries = c.nextRoots (Yard.roots y.entries) token := by
  have hexpecting := hagrees.expecting_eq
  cases h with
  | @expecting ts frames hopens =>
    replace hexpecting : c.expecting = true := hexpecting
    cases token with
    | number x =>
      cases hstep
      rfl
    | operator symbol =>
      rw [Counter.nextRoots, if_pos hexpecting]
      cases hsymbol : UnaryOp.ofSymbol? symbol with
      | none =>
        rw [Yard.step_operator_of_expecting frames hsymbol] at hstep
        contradiction
      | some op =>
        obtain rfl : op.symbol = symbol := by cases symbol <;> cases hsymbol <;> rfl
        rw [Yard.step_sign] at hstep
        cases hstep
        rfl
    | openParen =>
      cases hstep
      rfl
    | closeParen => contradiction
    | foreign text => contradiction
  | @operand ts us frames e hopens hatom =>
    replace hexpecting : c.expecting = false := hexpecting
    cases token with
    | number x => contradiction
    | operator symbol =>
      obtain ⟨op, rfl⟩ : ∃ op : BinaryOp, symbol = op.symbol := ⟨.ofSymbol symbol, by simp⟩
      rw [Yard.step_operator] at hstep
      cases hstep
      rw [Counter.nextRoots, hexpecting, BinaryOp.ofSymbol_symbol]
      exact hopens.roots_close op e
    | openParen => contradiction
    | closeParen =>
      rw [Yard.step_closeParen] at hstep
      rcases close_all_cases e frames with ⟨-, e', hclose⟩ | ⟨e', outer, hclose, -⟩
      · rw [hclose] at hstep
        contradiction
      · rw [hclose] at hstep
        cases hstep
        exact roots_close_all hclose
    | foreign text => contradiction

theorem Reads.roots_run {ts us : List Token} {y y' : Yard} {c : Counter} (h : Reads ts y)
    (hagrees : c.Agrees y) (hcomplaint : c.firstComplaint? us = none) (hrun : y.run us = .ok y') :
    Yard.roots y'.entries = c.runRoots (Yard.roots y.entries) us := by
  induction us generalizing ts y c with
  | nil =>
    cases hrun
    rfl
  | cons token us ih =>
    rw [Counter.firstComplaint?, Option.or_eq_none_iff] at hcomplaint
    obtain ⟨next, hstep, hnext⟩ := hagrees.step_of_no_complaint hcomplaint.1
    rw [Yard.run_cons, hstep] at hrun
    rw [ih (h.step hstep) hnext hcomplaint.2 hrun, h.roots_step hagrees hstep]
    rfl

/-! ### The end -/

/-- What runs short after the operator `last` if these entries wait. -/
inductive Yard.RunsShort (last : Symbol) (entries : List Entry) : Malformed → Prop where
  /-- There are only signs, and the last token is one. -/
  | sign {sign} : (∀ op, Entry.operator (.binary op) ∉ entries) →
      UnaryOp.ofSymbol? last = some sign → RunsShort last entries (.missingOperand (.unary sign))
  /-- The outermost operator between operands has one only. -/
  | operator {inner op outer} : entries = inner ++ .operator (.binary op) :: outer →
      (∀ op, Entry.operator (.binary op) ∉ outer) → .paren ∉ inner →
      RunsShort last entries (.missingOperand (.binary op))
  /-- A parenthesis is open inside of the outermost operator. -/
  | paren {inner op outer} : entries = inner ++ .operator (.binary op) :: outer →
      (∀ op, Entry.operator (.binary op) ∉ outer) → .paren ∈ inner →
      RunsShort last entries .unmatchedOpen

/-- The same from the roots of the open groups: the root of the innermost group runs short unless
there is one further out. -/
def Counter.shortage (last : Symbol) (roots : List (Option BinaryOp)) : Malformed :=
  if ∃ root? ∈ roots.tail, root? ≠ none then .unmatchedOpen
  else .missingOperand (roots.head?.join.elim (.ofSymbol last true) .binary)

namespace Yard

theorem RunsShort.eq_shortage {last : Symbol} {entries : List Entry} {error : Malformed}
    (h : RunsShort last entries error) : error = Counter.shortage last (roots entries) := by
  cases h with
  | @sign sign hnone hlast =>
    have hroots := roots_of_joints ((joints_eq_zero_iff entries).2 hnone)
    obtain ⟨root?, rest, heq⟩ := exists_roots entries
    rw [heq, List.forall_mem_cons] at hroots
    have hsign : Operator.ofSymbol last true = .unary sign := by
      cases last <;> cases hlast <;> rfl
    rw [heq, Counter.shortage, if_neg (by simpa using hroots.2), hroots.1, hsign]
    rfl
  | @operator inner op outer heq hnone hparen =>
    have hroots := roots_outermost inner op ((joints_eq_zero_iff outer).2 hnone)
    rw [if_neg hparen] at hroots
    obtain ⟨rest, hroots, hrest⟩ := hroots
    rw [heq, hroots, Counter.shortage, if_neg (by simpa using hrest)]
    rfl
  | @paren inner op outer heq hnone hparen =>
    have hroots := roots_outermost inner op ((joints_eq_zero_iff outer).2 hnone)
    rw [if_pos hparen] at hroots
    rw [heq, Counter.shortage, if_pos hroots]

theorem exists_runsShort {last : Symbol} {expecting : Bool} {operands : List Expr}
    {entries : List Entry} (hlast : entries.head? = some (.operator (.ofSymbol last expecting)))
    (hlength : operands.length = joints entries) :
    ∃ error, RunsShort last entries error ∧ drain operands entries = .error error := by
  by_cases hzero : joints entries = 0
  · obtain ⟨rest, rfl⟩ : ∃ rest, entries = .operator (.ofSymbol last expecting) :: rest :=
      List.head?_eq_some_iff.1 hlast
    have hoperands : operands = [] := List.eq_nil_of_length_eq_zero (hlength.trans hzero)
    have hnone := (joints_eq_zero_iff _).1 hzero
    cases hop : Operator.ofSymbol last expecting with
    | unary sign =>
      have hsign : UnaryOp.ofSymbol? last = some sign := by
        cases last <;> cases expecting <;> cases hop <;> rfl
      refine ⟨_, .sign (by rwa [hop] at hnone) hsign, ?_⟩
      rw [hoperands]
      rfl
    | binary op =>
      rw [hop] at hnone
      exact absurd (List.mem_cons_self ..) (hnone op)
  · obtain ⟨inner, op, outer, rfl, houter⟩ := exists_outermost hzero
    have hinner : operands.length = joints inner + 1 := by
      rw [hlength, joints_append, joints_cons, houter]
      rfl
    have hnone := (joints_eq_zero_iff outer).1 houter
    rw [drain_outermost op hinner]
    by_cases hparen : Entry.paren ∈ inner
    · exact ⟨_, .paren rfl hnone hparen, by rw [if_pos hparen]⟩
    · exact ⟨_, .operator rfl hnone hparen, by rw [if_neg hparen]⟩

theorem head?_entries_of_step_operator {y y' : Yard} {symbol : Symbol}
    (h : y.step (.operator symbol) = .ok y') :
    y'.entries.head? = some (.operator (.ofSymbol symbol y.expecting)) := by
  rw [step_eq] at h
  cases hcheck : y.check (.operator symbol) with
  | error error =>
    rw [hcheck] at h
    contradiction
  | ok =>
    simp only [hcheck, advance, bind, Except.bind] at h
    split at h
    · next op hop =>
      cases h
      rw [hop]
      rfl
    · next op hop =>
      split at h
      · contradiction
      · cases h
        rw [hop]
        rfl

theorem head?_entries_of_step_openParen {y y' : Yard} (h : y.step .openParen = .ok y') :
    y'.entries.head? = some .paren := by
  rw [step_eq] at h
  cases hcheck : y.check .openParen with
  | error error =>
    rw [hcheck] at h
    contradiction
  | ok =>
    rw [hcheck] at h
    cases h
    rfl

theorem finish_of_drain_error {y : Yard} {error : Malformed}
    (h : drain y.operands y.entries = .error error) : y.finish = .error error := by
  rw [finish, h]
  rfl

end Yard

end Calculator
