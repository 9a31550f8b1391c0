import FlowGraph.Proofs.Program.Replay
import FlowGraph.Proofs.Run.Taken

/-!
# No node is lost

A run, a dry run and a replay all pass over an id without a node.  This module
shows that none of them ever meets one: whatever waits in a queue is a start or
the target of a connection, and validation has made sure that both are declared.
For walks and replays the proof puts something else in the place of the branch
that passes over an id, and shows that nothing changes.

Main results:

- Theorem `walkElse_eq_walk`: what a walk does at an id without a node does not
  matter.
- Theorem `replayElse_eq_replay`: the same for the replay of a plan.
- Theorem `no_node_lost`: validation, starts, hops, runs, dry runs and replays.
-/

namespace FlowGraph

namespace Definition

/-- The definition declares an id. -/
def Declares (d : Definition) (id : String) : Prop := ∃ node ∈ d.nodes, node.id = id

end Definition

namespace Traversal

variable {m : Type → Type} [Monad m]

/-- A walk that does something else at an id without a node. -/
def walkElse (other : Traversal → List String → m (List String)) (w : Workflow)
    (defaults : RouterDefaults) (outputOf : Node → m Json) (fuel : Nat) (t : Traversal)
    (visited : List String) : m (List String) :=
  match fuel with
  | 0 => pure visited.reverse
  | fuel + 1 =>
    match t.next with
    | (none, _) => pure visited.reverse
    | (some id, t) =>
      match w.node? id with
      | none => other t visited
      | some node => do
        let output ← if node.disabled then pure none else some <$> outputOf node
        walkElse other w defaults outputOf fuel
          (t.complete id (successors w defaults node output)) (id :: visited)

/-- A dry run that does something else at an id without a node. -/
def dryRunElse (other : Traversal → List String → m (List String)) (w : Workflow)
    (starts : List String) (defaults : RouterDefaults) (outputOf : Node → m Json) :
    m (List String) :=
  walkElse other w defaults outputOf (starts.length + w.connections.length) (start starts) []

/-- Completing a node lets only declared ids wait. -/
theorem declared_complete {w : Workflow} {t : Traversal}
    (hqueue : ∀ id ∈ t.queue, (w.node? id).isSome = true) (defaults : RouterDefaults)
    (id : String) (node : Node) (output : Option Json) :
    ∀ other ∈ (t.complete id (successors w defaults node output)).queue,
      (w.node? other).isSome = true := by
  intro other hother
  rcases List.mem_append.mp hother with hother | hother
  · exact hqueue other hother
  · exact Workflow.isSome_node?_of_mem_successors hother

/-- What a walk does at an id without a node does not matter. -/
theorem walkElse_eq_walk (other : Traversal → List String → m (List String)) (w : Workflow)
    (defaults : RouterDefaults) (outputOf : Node → m Json) (fuel : Nat) (t : Traversal)
    (visited : List String) (hqueue : ∀ id ∈ t.queue, (w.node? id).isSome = true) :
    walkElse other w defaults outputOf fuel t visited =
      walk w defaults outputOf fuel t visited := by
  induction fuel generalizing t visited with
  | zero => rfl
  | succ fuel ih =>
      rcases hnext : t.next with ⟨_ | id, t'⟩
      · simp only [walkElse, walk, hnext]
      · obtain ⟨hid, hrest⟩ := declared_of_next hqueue hnext
        obtain ⟨node, hnode⟩ := Option.isSome_iff_exists.mp hid
        have hgo : ∀ output,
            walkElse other w defaults outputOf fuel
                (t'.complete id (successors w defaults node output)) (id :: visited) =
              walk w defaults outputOf fuel
                (t'.complete id (successors w defaults node output)) (id :: visited) :=
          fun output => ih _ _ (declared_complete hrest defaults id node output)
        simp only [walkElse, walk, hnext, hnode, hgo]

end Traversal

namespace Program.Plan

variable {m : Type → Type} [Monad m]

/-- A replay that does something else at an id without a step. -/
def replayElse (other : Traversal → List String → m (List String)) (p : Plan)
    (outputOf : Node → m Json) (fuel : Nat) (t : Traversal) (visited : List String) :
    m (List String) :=
  match fuel with
  | 0 => pure visited.reverse
  | fuel + 1 =>
    match t.next with
    | (none, _) => pure visited.reverse
    | (some id, t) =>
      match p.step? id with
      | none => other t visited
      | some step => do
        let output ← if step.role = .disabled then pure none else some <$> outputOf step.node
        replayElse other p outputOf fuel (t.complete id (step.successors.select output))
          (id :: visited)

/-- A simulation that does something else at an id without a step. -/
def simulateElse (other : Traversal → List String → m (List String)) (p : Plan)
    (outputOf : Node → m Json) : m (List String) :=
  let targets := p.steps.flatMap fun s => s.successors.targets
  replayElse other p outputOf (p.starts.length + targets.length) (.start p.starts) []

/-- What the replay of a workflow's plan does at an id without a step does not
matter. -/
theorem replayElse_eq_replay (other : Traversal → List String → m (List String)) (w : Workflow)
    (defaults : RouterDefaults) (outputOf : Node → m Json) (fuel : Nat) (t : Traversal)
    (visited : List String) (hqueue : ∀ id ∈ t.queue, (w.node? id).isSome = true) :
    (ofWorkflow w defaults).replayElse other outputOf fuel t visited =
      (ofWorkflow w defaults).replay outputOf fuel t visited := by
  induction fuel generalizing t visited with
  | zero => rfl
  | succ fuel ih =>
      rcases hnext : t.next with ⟨_ | id, t'⟩
      · simp only [replayElse, replay, hnext]
      · obtain ⟨hid, hrest⟩ := Traversal.declared_of_next hqueue hnext
        obtain ⟨node, hnode⟩ := Option.isSome_iff_exists.mp hid
        have hstep := step?_ofWorkflow w defaults id
        rw [hnode, Option.map_some] at hstep
        have hgo : ∀ output,
            (ofWorkflow w defaults).replayElse other outputOf fuel
                (t'.complete id (Traversal.successors w defaults node output)) (id :: visited) =
              (ofWorkflow w defaults).replay outputOf fuel
                (t'.complete id (Traversal.successors w defaults node output)) (id :: visited) :=
          fun output => ih _ _ (Traversal.declared_complete hrest defaults id node output)
        simp only [replayElse, replay, hnext, hstep, select_successorsOf, hgo]

end Program.Plan

open Program (Plan)

/-- No node is lost between validation and execution.  In a workflow that was
validated, a look-up finds exactly the declared nodes, and every accepted start,
every hop and every source node is declared.  So whatever a dispatcher answers and
whatever signals arrive, a run takes and is held before declared ids only, and each
id that it has taken has a result or is the one in hand: its node was skipped or
started, or the run is held before it or was cancelled there.  What a dry run or the
replay of a plan does at an id without a node does not matter. -/
theorem no_node_lost {d : Definition} {w : Workflow} (hw : Workflow.ofDefinition d = .ok w) :
    (∀ id node, w.node? id = some node ↔ node ∈ d.nodes ∧ node.id = id) ∧
    (∀ id, (w.node? id).isSome = true ↔ d.Declares id) ∧
    (∀ explicit starts, w.startNodes explicit = .ok starts → ∀ id ∈ starts, d.Declares id) ∧
    (∀ defaults node output, ∀ id ∈ w.graph.nextHops defaults node output, d.Declares id) ∧
    (∀ source, ∀ id ∈ w.graph.fanOut source, d.Declares id) ∧
    (∀ target, ∀ id ∈ w.graph.sources target, d.Declares id) ∧
    (∀ explicit starts defaults, w.startNodes explicit = .ok starts →
      (∀ dispatcher input taken r,
        Run.Takes ⟨w, defaults⟩ dispatcher Run.AnySignal (.initial starts input) taken r →
        (∀ id, r.takes? = some id ∨ r.phase = .held id → d.Declares id) ∧
          taken = r.visited ++ r.inHand.toList ∧ ∀ id ∈ taken, r.Fate w id) ∧
      ∀ (m : Type → Type) [Monad m] other (outputOf : Node → m Json),
        Traversal.dryRunElse other w starts defaults outputOf =
          Traversal.dryRun w starts defaults outputOf) ∧
    ∀ defaults (m : Type → Type) [Monad m] other (outputOf : Node → m Json),
      (Plan.ofWorkflow w defaults).simulateElse other outputOf =
        (Plan.ofWorkflow w defaults).simulate outputOf := by
  obtain rfl := Workflow.definition_of_ofDefinition hw
  have hdeclared (id : String) : (w.node? id).isSome = true ↔ w.definition.Declares id :=
    (w.isSome_node?_iff id).trans List.mem_map
  refine ⟨w.node?_eq_some_iff, hdeclared, ?_, ?_, ?_, ?_, ?_, ?_⟩
  · intro explicit starts hstarts id hid
    exact (hdeclared id).mp ((Workflow.startNodes_eq_ok hstarts).2 id hid)
  · intro defaults node output id hid
    exact (hdeclared id).mp (Workflow.isSome_node?_of_mem_nextHops hid)
  · intro source id hid
    exact (hdeclared id).mp (Workflow.isSome_node?_of_mem_fanOut hid)
  · intro target id hid
    exact (hdeclared id).mp (Workflow.isSome_node?_of_mem_sources hid)
  · intro explicit starts defaults hstarts
    have hqueue := (Workflow.startNodes_eq_ok hstarts).2
    constructor
    · intro dispatcher input taken r htakes
      have hkept := htakes.kept hqueue
      refine ⟨?_, hkept.accounts.taken_eq, fun id => hkept.fate⟩
      rintro id (htaken | hheld)
      · exact (hdeclared id).mp (Run.isSome_node?_of_takes? hkept.waits htaken)
      · exact (hdeclared id).mp (hkept.waits.held id hheld)
    · intro m _ other outputOf
      exact Traversal.walkElse_eq_walk other w defaults outputOf _ _ [] hqueue
  · intro defaults m _ other outputOf
    exact Plan.replayElse_eq_replay other w defaults outputOf _ _ []
      fun _ => Workflow.isSome_node?_of_mem_starts

/-- In the loop, a run that is woken has taken the trigger and started it. -/
theorem no_node_lost_choiceLoop :
    let c : RunContext := ⟨.choiceLoop, {}⟩
    let r := (Run.initial ["start"] .null).wake c
    Workflow.ofDefinition Workflow.choiceLoop.definition = .ok .choiceLoop ∧
      Workflow.choiceLoop.startNodes none = .ok ["start"] ∧
      ∀ dispatcher,
        Run.Takes c dispatcher Run.AnySignal (.initial ["start"] .null) ["start"] r ∧
          r.Fate .choiceLoop "start" := by
  intro c r
  have hw : Workflow.ofDefinition Workflow.choiceLoop.definition = .ok .choiceLoop :=
    Workflow.ofDefinition_eq_ok _
  have hstarts := Workflow.startNodes_choiceLoop
  refine ⟨hw, hstarts, fun dispatcher => ?_⟩
  have hsteps : Run.Steps c dispatcher Run.AnySignal (.initial ["start"] .null) r :=
    (Run.steps_wake (by simp [Run.initial])).1
  obtain ⟨taken, htakes⟩ := hsteps.takes
  have hlost := ((no_node_lost hw).2.2.2.2.2.2.1 none ["start"] {} hstarts).1 dispatcher .null
    taken r htakes
  have hr : r = ⟨.dispatching (.new "start" "flow.manualTrigger"), ⟨[], ∅⟩, .null, [],
      [.runStarted c.workflow.name, .nodeStarted "start" "flow.manualTrigger"], false, false⟩ :=
    Run.wake_initial [] Workflow.node?_choiceLoop rfl .null
  obtain rfl : taken = ["start"] := by
    rw [hlost.2.1, hr]
    rfl
  exact ⟨htakes, hlost.2.2 "start" List.mem_cons_self⟩

end FlowGraph
