import Calculator.Expr.Postorder

/-! Operands on a stack, node by node.

The postorders of the operands on a stack, one after the other from the bottom, are a list
of nodes (`Expr.postorders`). A node that finds its operands on top replaces them by one
tree and so comes to stand at the end of that list (`Node.outcome_of_arity_le`); a node that
lacks operands changes nothing (`Node.outcome_of_lt_arity`). So the list is at any time the
nodes that could run, in their order, and those that could not might as well have been left
out (`Node.outcomes_lossless`). -/
namespace Calculator

namespace Expr

theorem postorder_unary (op : UnaryOp) (e : Expr) :
    (unary op e).postorder = e.postorder ++ [.operator (.unary op)] :=
  e.postorderOnto_eq _

theorem postorder_binary (op : BinaryOp) (l r : Expr) :
    (binary op l r).postorder = l.postorder ++ r.postorder ++ [.operator (.binary op)] := by
  show l.postorderOnto (r.postorderOnto [.operator (.binary op)]) = _
  rw [postorderOnto_eq, postorderOnto_eq, List.append_assoc]

/-- The nodes of all operands on a stack, from the bottom. -/
def postorders (operands : List Expr) : List Node :=
  operands.reverse.flatMap postorder

theorem postorders_append (above below : List Expr) :
    postorders (above ++ below) = postorders below ++ postorders above := by
  simp [postorders]

theorem postorders_singleton (e : Expr) : postorders [e] = e.postorder :=
  List.append_nil _

end Expr

namespace Node
open Calculator.Expr

/-- How many operands a node takes. -/
def arity : Node → Nat
  | .operator op => op.arity
  | _ => 0

/-! ### One node -/

/-- A node that finds its operands makes one tree of them and leaves what lies below. -/
theorem outcome_of_arity_le {node : Node} {operands : List Expr}
    (h : node.arity ≤ operands.length) :
    ∃ e, node.outcome operands = (none, e :: operands.drop node.arity) ∧
      e.postorder = postorders (operands.take node.arity) ++ [node] := by
  cases node with
  | constant x => exact ⟨.constant x, rfl, rfl⟩
  | foreign text => exact ⟨.foreign text, rfl, rfl⟩
  | operator op =>
    cases op with
    | unary op =>
      obtain ⟨x, rest, rfl⟩ := List.exists_cons_of_length_pos h
      refine ⟨.unary op x, rfl, ?_⟩
      show _ = postorders [x] ++ _
      rw [postorder_unary, postorders_singleton]
    | binary op =>
      obtain ⟨y, below, rfl⟩ := List.exists_cons_of_length_pos (Nat.lt_of_succ_lt h)
      obtain ⟨x, rest, rfl⟩ := List.exists_cons_of_length_pos (Nat.lt_of_succ_lt_succ h)
      refine ⟨.binary op x y, rfl, ?_⟩
      show _ = postorders ([y] ++ [x]) ++ _
      rw [postorder_binary, postorders_append, postorders_singleton, postorders_singleton]

/-- Only an operator can lack operands, and then it leaves those there are. -/
theorem outcome_of_lt_arity {node : Node} {operands : List Expr}
    (h : operands.length < node.arity) :
    ∃ op, node = .operator op ∧ node.outcome operands = (some (.missingOperand op), operands) := by
  cases node with
  | constant | foreign => exact absurd h (Nat.not_lt_zero _)
  | operator op =>
    have hact : op.act operands = .error (.missingOperand op) operands :=
      (op.act_eq operands).trans (if_pos h)
    exact ⟨op, rfl, by rw [outcome, act, hact]⟩

theorem outcome_ne_none_iff (node : Node) (operands : List Expr) :
    (node.outcome operands).1 ≠ none ↔ operands.length < node.arity := by
  constructor
  · intro hfails
    rcases Nat.lt_or_ge operands.length node.arity with hlt | hle
    · exact hlt
    · obtain ⟨e, houtcome, -⟩ := outcome_of_arity_le hle
      exact absurd (congrArg Prod.fst houtcome) hfails
  · intro hlt
    obtain ⟨op, -, houtcome⟩ := outcome_of_lt_arity hlt
    simp [houtcome]

/-! ### Runs -/

/-- The stack that nodes leave. -/
def stackAfter (operands : List Expr) (nodes : List Node) : List Expr :=
  nodes.foldl (fun operands node => (node.outcome operands).2) operands

/-- The nodes that can run when their turn comes. -/
def succeeding (operands : List Expr) (nodes : List Node) : List Node :=
  ((nodes.zip (outcomes operands nodes)).filter (·.2.1.isNone)).map (·.1)

theorem outcomes_append (operands : List Expr) (before after : List Node) :
    outcomes operands (before ++ after) =
      outcomes operands before ++ outcomes (stackAfter operands before) after := by
  induction before generalizing operands with
  | nil => rfl
  | cons node before ih =>
    rw [List.cons_append, outcomes, ih]
    rfl

theorem succeeding_cons_of_none {operands left : List Expr} {node : Node}
    (h : node.outcome operands = (none, left)) (nodes : List Node) :
    succeeding operands (node :: nodes) = node :: succeeding left nodes := by
  simp [succeeding, outcomes, h]

theorem succeeding_cons_of_some {operands left : List Expr} {node : Node} {error : Malformed}
    (h : node.outcome operands = (some error, left)) (nodes : List Node) :
    succeeding operands (node :: nodes) = succeeding left nodes := by
  simp [succeeding, outcomes, h]

/-- What nodes add to a stack is themselves, as far as they can run. -/
theorem postorders_stackAfter (operands : List Expr) (nodes : List Node) :
    postorders (stackAfter operands nodes) = postorders operands ++ succeeding operands nodes := by
  induction nodes generalizing operands with
  | nil => exact (List.append_nil _).symm
  | cons node nodes ih =>
    show postorders (stackAfter (node.outcome operands).2 nodes) = _
    rcases Nat.lt_or_ge operands.length node.arity with hlt | hle
    · obtain ⟨op, -, houtcome⟩ := outcome_of_lt_arity hlt
      rw [ih, succeeding_cons_of_some houtcome, houtcome]
    · obtain ⟨e, houtcome, he⟩ := outcome_of_arity_le hle
      have hleft : postorders (e :: operands.drop node.arity) = postorders operands ++ [node] := by
        calc postorders ([e] ++ operands.drop node.arity)
          _ = postorders (operands.drop node.arity) ++
              (postorders (operands.take node.arity) ++ [node]) := by
            rw [postorders_append, postorders_singleton, he]
          _ = postorders operands ++ [node] := by
            rw [← List.append_assoc, ← postorders_append, List.take_append_drop]
      rw [ih, succeeding_cons_of_none houtcome, houtcome, hleft, List.append_assoc]
      rfl

/-- **Nothing on the stack is lost, doubled or moved.** A node in a run fails exactly if there are
fewer operands than it takes. It leaves the stack as it was then, and the others fare as if it
had been left out. Otherwise it takes its operands off the top and leaves one tree. After each node
the stack holds, in postorder, the nodes that could run. -/
theorem outcomes_lossless (before after : List Node) (node : Node) :
    let stack := stackAfter [] before
    let result := node.outcome stack
    outcomes [] (before ++ node :: after) = outcomes [] before ++ result :: outcomes result.2 after ∧
      (result.1 ≠ none ↔ stack.length < node.arity) ∧
      (result.1 ≠ none → result.2 = stack ∧
        outcomes [] (before ++ after) = outcomes [] before ++ outcomes result.2 after) ∧
      (result.1 = none → ∃ e, result.2 = e :: stack.drop node.arity) ∧
      postorders result.2 = succeeding [] (before ++ [node]) := by
  intro stack result
  have hfails := outcome_ne_none_iff node stack
  refine ⟨outcomes_append [] before (node :: after), hfails, fun herror => ?_, fun hruns => ?_, ?_⟩
  · obtain ⟨op, -, houtcome⟩ := outcome_of_lt_arity (hfails.1 herror)
    have hstack : result.2 = stack := congrArg Prod.snd houtcome
    exact ⟨hstack, hstack ▸ outcomes_append [] before after⟩
  · obtain ⟨e, houtcome, -⟩ := outcome_of_arity_le (Nat.not_lt.1 fun hlt => hfails.2 hlt hruns)
    exact ⟨e, congrArg Prod.snd houtcome⟩
  · have hresult : stackAfter [] (before ++ [node]) = result.2 := by
      simp [stackAfter, result, stack]
    rw [← hresult]
    exact postorders_stackAfter [] (before ++ [node])

/-- An addition that finds one operand leaves it to the subtraction that comes later. -/
theorem outcomes_lossless_addition :
    ((operator (.binary .add)).outcome (stackAfter [] [.constant 1])).1 ≠ none ∧
      outcomes [] ([.constant 1] ++ [.constant 2, .operator (.binary .subtract)]) =
        outcomes [] [.constant 1] ++
          outcomes [.constant 1] [.constant 2, .operator (.binary .subtract)] ∧
      outcomes [] ([.constant 1] ++ .operator (.binary .add) ::
          [.constant 2, .operator (.binary .subtract)]) =
        [(none, [.constant 1]), (some (.missingOperand (.binary .add)), [.constant 1]),
          (none, [.constant 2, .constant 1]),
          (none, [.binary .subtract (.constant 1) (.constant 2)])] ∧
      ((operator (.binary .subtract)).outcome
        (stackAfter [] [.constant 1, .operator (.binary .add), .constant 2])).1 = none ∧
      ∃ e, ((operator (.binary .subtract)).outcome
        (stackAfter [] [.constant 1, .operator (.binary .add), .constant 2])).2 = [e] := by
  obtain ⟨hrun, hfails, habsent, -⟩ := outcomes_lossless [.constant 1]
    [.constant 2, .operator (.binary .subtract)] (.operator (.binary .add))
  obtain ⟨-, -, -, hruns, -⟩ := outcomes_lossless
    [.constant 1, .operator (.binary .add), .constant 2] [] (.operator (.binary .subtract))
  have hshort := hfails.2 (by decide)
  exact ⟨hshort, (habsent hshort).2, hrun, rfl, hruns rfl⟩

/-! ### Reading a postorder -/

theorem forM_act_cons (node : Node) (nodes : List Node) (operands : List Expr) :
    (node :: nodes).forM act operands =
      match node.act operands with
      | .ok _ left => nodes.forM act left
      | .error e left => .error e left := by
  show EStateM.bind node.act (fun _ => nodes.forM act) operands = _
  rw [EStateM.bind]
  cases node.act operands <;> rfl

theorem forM_act_postorder (e : Expr) (operands : List Expr) :
    e.postorder.forM act operands = .ok () (e :: operands) := by
  have onto (rest : List Node) : (e.postorderOnto rest).forM act operands =
      rest.forM act (e :: operands) := by
    induction e generalizing operands rest with
    | constant | foreign => rfl
    | unary op e ih =>
      rw [Expr.postorderOnto, ih]
      rfl
    | binary op l r ihl ihr =>
      rw [Expr.postorderOnto, ihl, ihr]
      rfl
  exact onto []

/-- Nodes that all run are the ones that could. -/
theorem succeeding_of_forM_act {operands left : List Expr} {nodes : List Node}
    (h : nodes.forM act operands = .ok () left) :
    stackAfter operands nodes = left ∧ succeeding operands nodes = nodes := by
  induction nodes generalizing operands with
  | nil =>
    cases h
    exact ⟨rfl, rfl⟩
  | cons node nodes ih =>
    rw [forM_act_cons] at h
    cases hact : node.act operands with
    | error e next =>
      rw [hact] at h
      contradiction
    | ok _ next =>
      rw [hact] at h
      obtain ⟨hstack, hall⟩ := ih h
      have houtcome : node.outcome operands = (none, next) := by rw [outcome, hact]
      rw [succeeding_cons_of_none houtcome, hall, ← hstack, stackAfter, List.foldl_cons, houtcome]
      exact ⟨rfl, rfl⟩

end Node

/-- **A list of nodes is read as a tree exactly if it is its postorder.** -/
theorem Expr.ofPostorder?_eq_some_iff (nodes : List Node) (e : Expr) :
    ofPostorder? nodes = some e ↔ nodes = e.postorder := by
  constructor
  · intro h
    unfold ofPostorder? at h
    split at h
    · next hrun =>
      obtain ⟨hstack, hall⟩ := Node.succeeding_of_forM_act hrun
      cases h
      rw [← hall, ← postorders_singleton, ← hstack, Node.postorders_stackAfter]
      rfl
    · contradiction
  · rintro rfl
    rw [ofPostorder?, Node.forM_act_postorder]

end Calculator
