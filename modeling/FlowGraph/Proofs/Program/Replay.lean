import FlowGraph.Program.Plan
import FlowGraph.Proofs.Workflow.Edges
import FlowGraph.Proofs.Workflow.Walk
import Mathlib.Algebra.Order.BigOperators.Group.List
import Mathlib.Algebra.Order.Group.Nat

/-!
# Replaying a plan

A plan lists the targets of every label beforehand, while a traversal filters
the connections of the node it has reached.  This module shows that both choose
the same hops, and that replaying the plan of a workflow therefore asks for the
same outputs in the same order and visits the same ids as a dry run.

Main results:

- Theorem `select_successorsOf`: the rule of a step selects the hops of its
  node.
- Theorem `replay_eq_walkFrom`: replaying a plan is walking its workflow.
- Theorem `connections_le_targets`: the targets of a plan count every
  connection, so that a replay is never cut short.
- Theorem `simulate_replays_dryRun`: a replay is a dry run from the detected
  starts.

Current gaps:

- The replay is that of the plan; that the text of a program says the same is not shown.
-/

namespace FlowGraph.Program

namespace Plan

variable (w : Workflow) (defaults : RouterDefaults)

/-! ## The rule of a step -/

/-- Searching the branches of a node for a label finds the targets of the label,
or nothing when no connection carries it. -/
theorem select_routed (g : Graph) (id default : String) (output : Option Json) :
    (Successors.routed
        ((g.labels id).map fun label => ⟨label, g.targetsFor id label⟩) default).select output =
      g.targetsFor id ((output.bind branchLabel).getD default) := by
  generalize hlabel : (output.bind branchLabel).getD default = label
  simp only [Successors.select, hlabel, List.find?_map]
  cases hfound : (g.labels id).find? fun other => decide (other = label) with
  | some other =>
      have hother : other = label := by
        simpa using List.find?_some hfound
      subst hother
      have hbranch : (g.labels id).find?
          ((fun b : Branch => decide (b.label = other)) ∘
            fun label => ⟨label, g.targetsFor id label⟩) = some other := hfound
      rw [hbranch]
      rfl
  | none =>
      have hbranch : (g.labels id).find?
          ((fun b : Branch => decide (b.label = label)) ∘
            fun label => ⟨label, g.targetsFor id label⟩) = none := hfound
      rw [hbranch]
      have hunused : ∀ edge ∈ g.outgoing id, ¬edge.label = label := by
        intro edge hedge heq
        have hmem : edge.label ∈ g.labels id :=
          List.mem_eraseDups.2 (List.mem_map_of_mem hedge)
        have hne := List.find?_eq_none.mp hfound edge.label hmem
        simp [heq] at hne
      have hnone : (g.outgoing id).filter (fun edge => edge.label = label) = [] := by
        rw [List.filter_eq_nil_iff]
        simpa using hunused
      simp [Graph.targetsFor, hnone]

/-- The rule of a step selects the hops of its node. -/
theorem select_successorsOf (node : Node) (output : Option Json) :
    (successorsOf w defaults node).select output =
      Traversal.successors w defaults node output := by
  unfold successorsOf Traversal.successors Graph.nextHops
  cases NodeKind.ofTag node.typeTag with
  | router kind =>
      by_cases hdisabled : node.disabled = true
      · simp [hdisabled, Successors.select]
      · simp only [hdisabled, Bool.false_eq_true, if_false]
        exact select_routed w.graph node.id _ output
  | trigger => simp [Successors.select]
  | activity => simp [Successors.select]

/-- A step is disabled exactly when its node is. -/
theorem roleOf_eq_disabled_iff (activities : List ActivityRef) (node : Node) :
    roleOf activities node = .disabled ↔ node.disabled = true := by
  unfold roleOf
  split
  · simp_all
  · split <;> simp_all

/-- The step of an id is made from the node of that id. -/
theorem step?_ofWorkflow (id : String) :
    (ofWorkflow w defaults).step? id =
      (w.node? id).map fun node =>
        ⟨node, roleOf (activitiesOf w.nodes) node, successorsOf w defaults node⟩ := by
  rw [Workflow.node?_eq_find?]
  unfold step? ofWorkflow
  rw [List.find?_map]
  rfl

/-! ## No replay is cut short -/

/-- A step's rule lists at least as many targets as connections leave its
node. -/
theorem leaving_le_targets (node : Node) :
    (Workflow.leaving w.connections node.id).length ≤
      (successorsOf w defaults node).targets.length := by
  have hfanOut : (Workflow.leaving w.connections node.id).length =
      (w.graph.fanOut node.id).length := by
    rw [Workflow.fanOut_eq, List.length_map]
  rw [hfanOut]
  unfold successorsOf
  split
  · split
    · exact Nat.le_refl _
    · rw [Successors.targets, List.flatMap_map]
      exact (Graph.perm_targetsFor w.graph node.id).length_eq.ge
  · exact Nat.le_refl _

/-- The targets of a plan count every connection of its workflow. -/
theorem connections_le_targets :
    w.connections.length ≤
      ((ofWorkflow w defaults).steps.flatMap fun s => s.successors.targets).length := by
  have hsources : ∀ c ∈ w.connections, c.source ∈ w.nodes.map Node.id := by
    intro c hc
    rw [← Workflow.isSome_node?_iff]
    exact (Workflow.isSome_node?_of_connection hc).1
  refine (perm_flatMap_filter w.nodup_ids hsources).length_eq.ge.trans ?_
  rw [List.length_flatMap, List.length_flatMap]
  simp only [ofWorkflow, List.map_map]
  exact List.sum_le_sum fun node _ => leaving_le_targets w defaults node

/-! ## The replay is a walk -/

section Replay

variable {m : Type → Type} [Monad m] (outputOf : Node → m Json)

/-- A replay with a bound left asks the next node for its output and goes on
with the hops it selects. -/
theorem replay_succ_of_node {fuel : Nat} {t t' : Traversal} {id : String} {node : Node}
    {visited : List String} (hnext : t.next = (some id, t')) (hnode : w.node? id = some node) :
    (ofWorkflow w defaults).replay outputOf (fuel + 1) t visited =
      (Traversal.askOutput outputOf node >>= fun output =>
        (ofWorkflow w defaults).replay outputOf fuel
          (t'.complete id (Traversal.successors w defaults node output)) (id :: visited)) := by
  have hstep := step?_ofWorkflow w defaults id
  rw [hnode, Option.map_some] at hstep
  have hrole := roleOf_eq_disabled_iff (activitiesOf w.nodes) node
  unfold Traversal.askOutput
  cases hdisabled : node.disabled with
  | true =>
      simp only [replay, hnext, hstep, select_successorsOf, hrole.2 hdisabled, if_true]
  | false =>
      have henabled : ¬roleOf (activitiesOf w.nodes) node = .disabled := by
        simp [hrole, hdisabled]
      simp only [replay, hnext, hstep, select_successorsOf, henabled, Bool.false_eq_true, if_false]

/-- Replaying a plan from a traversal is walking on from it. -/
theorem replay_eq_walkFrom (fuel : Nat) (t : Traversal) (visited : List String)
    (hfuel : t.remaining w.connections ≤ fuel) :
    (ofWorkflow w defaults).replay outputOf fuel t visited =
      Traversal.walkFrom w defaults outputOf t visited := by
  induction fuel generalizing t visited with
  | zero =>
      rcases Traversal.next_of_remaining_eq_zero (Nat.le_zero.mp hfuel) with ⟨t', hnext⟩
      rw [Traversal.walkFrom_of_none w defaults outputOf visited hnext]
      rfl
  | succ fuel ih =>
      rcases hnext : t.next with ⟨_ | id, t'⟩
      · rw [Traversal.walkFrom_of_none w defaults outputOf visited hnext]
        simp only [replay, hnext]
      · rw [Traversal.walkFrom_of_some w defaults outputOf visited hnext]
        have hlt := Traversal.remaining_next_lt w.connections hnext
        cases hnode : w.node? id with
        | none =>
            have hstep := step?_ofWorkflow w defaults id
            rw [hnode, Option.map_none] at hstep
            simp only [replay, hnext, hstep]
            exact ih t' visited (by omega)
        | some node =>
            rw [replay_succ_of_node w defaults outputOf hnext hnode]
            congr 1
            funext output
            have hcomplete := Traversal.remaining_complete_next_lt defaults output hnext hnode
            exact ih _ _ (by omega)

/-- Simulating a plan is walking its workflow from the plan's starts. -/
theorem simulate_eq_walkFrom :
    (ofWorkflow w defaults).simulate outputOf =
      Traversal.walkFrom w defaults outputOf (.start w.graph.starts) [] := by
  have hcount := connections_le_targets w defaults
  apply replay_eq_walkFrom
  rw [Traversal.remaining_start]
  exact Nat.add_le_add_left hcount _

end Replay

/-- The detected starts are those of the graph. -/
theorem startNodes_none :
    w.startNodes none =
      if w.graph.starts.isEmpty then .error .noStartNodes else .ok w.graph.starts :=
  rfl

/-- A plan replays the traversal of its workflow.  In every monad, so also when
outputs depend on the calls made before, simulating the plan is the dry run from
the detected starts: the same ids are visited and the same nodes are asked for
their outputs in the same order.  Without a detected start nothing is visited.
For every declared node, the plan has a step whose rule selects after every
output, and after a failure, what a run selects. -/
theorem simulate_replays_dryRun :
    (∀ (m : Type → Type) [Monad m] (outputOf : Node → m Json),
      (ofWorkflow w defaults).simulate outputOf =
        match w.startNodes none with
        | .ok starts => Traversal.dryRun w starts defaults outputOf
        | .error _ => pure []) ∧
    (∀ node ∈ w.nodes, ∃ step, (ofWorkflow w defaults).step? node.id = some step ∧
      step.node = node ∧
      ∀ output : Option Json, step.successors.select output =
        if node.disabled then w.graph.fanOut node.id
        else w.graph.nextHops defaults node output) := by
  constructor
  · intro m _ outputOf
    rw [simulate_eq_walkFrom, startNodes_none]
    by_cases hempty : w.graph.starts.isEmpty = true
    · rw [if_pos hempty, List.isEmpty_iff.mp hempty]
      exact Traversal.walkFrom_of_none w defaults outputOf [] (Traversal.next_nil _)
    · rw [if_neg hempty]
      exact (Traversal.dryRun_eq_walkFrom w defaults outputOf w.graph.starts).symm
  · intro node hnode
    refine ⟨⟨node, roleOf (activitiesOf w.nodes) node, successorsOf w defaults node⟩, ?_, rfl, ?_⟩
    · rw [step?_ofWorkflow, Workflow.node?_id hnode]
      rfl
    · intro output
      exact select_successorsOf w defaults node output

/-- The choice in the loop: its step takes the loop's side after `true` and
leaves it after a failure. -/
theorem simulate_replays_dryRun_choiceLoop :
    (∀ outputOf : Node → StateM (List String) Json,
      (ofWorkflow .choiceLoop {}).simulate outputOf =
        Traversal.dryRun .choiceLoop ["start"] {} outputOf) ∧
    Node.new "check" "flow.if" ∈ Workflow.choiceLoop.nodes ∧
    ∃ step, (ofWorkflow .choiceLoop {}).step? "check" = some step ∧
      step.successors.select none =
        Workflow.choiceLoop.graph.nextHops {} (.new "check" "flow.if") none := by
  have hall := simulate_replays_dryRun Workflow.choiceLoop {}
  have hmem : Node.new "check" "flow.if" ∈ Workflow.choiceLoop.nodes := by
    simp [Workflow.nodes, Workflow.choiceLoop, Workflow.ofSound]
  refine ⟨?_, hmem, ?_⟩
  · intro outputOf
    rw [hall.1, Workflow.startNodes_choiceLoop]
  · rcases hall.2 _ hmem with ⟨step, hstep, _, hselect⟩
    exact ⟨step, hstep, hselect none⟩

end Plan

end FlowGraph.Program
