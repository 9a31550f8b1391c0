import FlowGraph.Proofs.Run.Steps

/-!
# Every node is visited once

The loop tests whether an id has been executed when it takes the id from the
queue, and a pause may come between this test and the visit.  This module shows
that the test stays true: whatever signals arrive, the executed ids are those of
the results, the results belong to distinct declared nodes, and the node that a
run dispatches or waits for has no result yet.

Main results:

- Theorem `visits_step`: every step keeps the results distinct.
- Theorem `Leads.visits`: every state of every run visits its nodes once.
- Theorem `Leads.induction_visits`: induction over a run whose visits are distinct.
- Theorem `Visits.length_results_le`: a run has at most as many results as its workflow
  has nodes.
-/

namespace FlowGraph

namespace Run

/-- The ids of the results so far. -/
def visited (r : Run) : List String := r.results.map NodeResult.nodeId

/-- The executed ids are those of the results, which belong to distinct declared
nodes. -/
structure Visits (w : Workflow) (r : Run) : Prop where
  mem_executed_iff : ∀ id, id ∈ r.traversal.executed ↔ id ∈ r.visited
  nodup : r.visited.Nodup
  declared : ∀ id ∈ r.visited, (w.node? id).isSome = true

/-- The node that a run dispatches is enabled, and the node that it dispatches
or waits for has no result yet. -/
def Ahead (w : Workflow) (r : Run) : Prop :=
  match r.phase with
  | .dispatching node =>
      w.node? node.id = some node ∧ node.disabled = false ∧ node.id ∉ r.visited
  | .held id => id ∉ r.visited
  | _ => True

/-- A new run has visited nothing. -/
theorem visits_initial (w : Workflow) (starts : List String) (input : Json) :
    Visits w (.initial starts input) ∧ Ahead w (.initial starts input) :=
  ⟨⟨by simp [initial, Traversal.start, visited], List.nodup_nil, by simp [initial, visited]⟩,
    trivial⟩

/-- Only the executed ids and the results matter. -/
theorem Visits.congr {w : Workflow} {r r' : Run} (hvisits : Visits w r)
    (hexecuted : r'.traversal.executed = r.traversal.executed)
    (hresults : r'.results = r.results) : Visits w r' := by
  have hvisited : r'.visited = r.visited := by
    rw [visited, hresults, visited]
  constructor
  · rw [hexecuted, hvisited]
    exact hvisits.mem_executed_iff
  · rw [hvisited]
    exact hvisits.nodup
  · rw [hvisited]
    exact hvisits.declared

/-- Recording the result of a declared node without one visits it once. -/
theorem Visits.record {w : Workflow} {r : Run} (hvisits : Visits w r) {result : NodeResult}
    (event : Event) (successors : List String) (hfresh : result.nodeId ∉ r.visited)
    (hdeclared : (w.node? result.nodeId).isSome = true) :
    Visits w (r.record result event successors) := by
  have hvisited : (r.record result event successors).visited = r.visited ++ [result.nodeId] := by
    simp [visited, Run.record, announce]
  constructor
  · intro id
    rw [hvisited, List.mem_append, List.mem_singleton, ← hvisits.mem_executed_iff, or_comm]
    exact Traversal.mem_complete_executed r.traversal result.nodeId id successors
  · rw [hvisited]
    refine List.nodup_append.mpr ⟨hvisits.nodup, List.nodup_singleton _, ?_⟩
    intro a ha b hb heq
    rw [List.mem_singleton] at hb
    exact hfresh (hb ▸ heq ▸ ha)
  · intro id hid
    rw [hvisited, List.mem_append, List.mem_singleton] at hid
    rcases hid with hid | rfl
    · exact hvisits.declared id hid
    · exact hdeclared

/-- Visiting an id without a result keeps the visits. -/
theorem Visits.visit {c : RunContext} {r : Run} (hvisits : Visits c.workflow r) {id : String}
    (hfresh : id ∉ r.visited) :
    Visits c.workflow (r.visit c id) ∧ Ahead c.workflow (r.visit c id) := by
  rcases visit_cases (c := c) r id with
    ⟨_, hvisit⟩ | ⟨node, hnode, _, hvisit⟩ | ⟨node, hnode, henabled, hvisit⟩ <;> rw [hvisit]
  · exact ⟨hvisits.congr rfl rfl, trivial⟩
  · obtain rfl := Workflow.id_of_node? hnode
    exact ⟨hvisits.record _ _ hfresh (by simp [NodeResult.skipped, hnode]), trivial⟩
  · obtain rfl := Workflow.id_of_node? hnode
    exact ⟨hvisits.congr rfl rfl, hnode, henabled, hfresh⟩

/-- Taking the answer for the dispatched node keeps the visits. -/
theorem Visits.take {c : RunContext} {r : Run} (hvisits : Visits c.workflow r) {node : Node}
    (hahead : Ahead c.workflow r) (hphase : r.phase = .dispatching node) (reply : Reply) :
    Visits c.workflow (r.take c node reply) ∧ Ahead c.workflow (r.take c node reply) := by
  simp only [Ahead, hphase] at hahead
  rcases hahead with ⟨hnode, _, hfresh⟩
  have hdeclared : (c.workflow.node? node.id).isSome = true := by
    rw [hnode]
    rfl
  rcases take_cases (c := c) r node reply with
    ⟨d, _, htake⟩ | ⟨e, _, _, htake⟩ | ⟨e, _, _, htake⟩ <;> rw [htake]
  · have hpayload : Visits c.workflow { r with payload := d.output } := hvisits.congr rfl rfl
    exact ⟨hpayload.record _ _ hfresh hdeclared, trivial⟩
  · exact ⟨hvisits.record _ _ hfresh hdeclared, trivial⟩
  · have hrecord : Visits c.workflow (r.record (.ofReply node (.error e))
        (.nodeFailed e.nodeId e.message e.attempts) []) :=
      hvisits.record _ _ hfresh hdeclared
    exact ⟨hrecord.congr rfl rfl, trivial⟩

variable {c : RunContext} {dispatcher : Dispatcher} {signals : Signal → Prop}

/-- Every step keeps the results distinct. -/
theorem visits_step {r r' : Run} (hstep : Step c dispatcher signals r r')
    (hvisits : Visits c.workflow r) (hahead : Ahead c.workflow r) :
    Visits c.workflow r' ∧ Ahead c.workflow r' := by
  cases hstep with
  | @signal s _ _ => cases s <;> exact ⟨hvisits.congr rfl rfl, hahead⟩
  | begin _ => exact ⟨hvisits.congr rfl rfl, trivial⟩
  | cancel _ _ => exact ⟨hvisits.congr rfl rfl, trivial⟩
  | @complete rest _ _ hnext =>
      have hexecuted : rest.executed = r.traversal.executed := by
        rw [(Traversal.next_eq_none hnext).2]
      exact ⟨hvisits.congr hexecuted rfl, trivial⟩
  | @hold id rest _ _ _ hnext =>
      rcases Traversal.next_eq_some hnext with ⟨hid, hexecuted, _⟩
      refine ⟨hvisits.congr hexecuted rfl, ?_⟩
      rw [hvisits.mem_executed_iff] at hid
      exact hid
  | @reach id rest _ _ _ hnext =>
      rcases Traversal.next_eq_some hnext with ⟨hid, hexecuted, _⟩
      have htaken : Visits c.workflow { r with traversal := rest } :=
        hvisits.congr hexecuted rfl
      rw [hvisits.mem_executed_iff] at hid
      exact htaken.visit hid
  | @resume id hphase _ _ =>
      simp only [Ahead, hphase] at hahead
      have hresumed : Visits c.workflow (r.announce .runResumed) := hvisits.congr rfl rfl
      exact hresumed.visit hahead
  | answer hphase _ => exact hvisits.take hahead hphase _

/-- Every state that steps lead to visits its nodes once. -/
theorem Steps.visits {starts : List String} {input : Json} {r : Run}
    (hsteps : Steps c dispatcher signals (.initial starts input) r) :
    Visits c.workflow r ∧ Ahead c.workflow r := by
  induction hsteps with
  | refl => exact visits_initial c.workflow starts input
  | tail _ hlast ih => exact visits_step hlast ih.1 ih.2

/-- Every state of every run visits its nodes once. -/
theorem Leads.visits {starts : List String} {input : Json} {r : Run}
    (hleads : Leads c dispatcher signals (.initial starts input) r) :
    Visits c.workflow r ∧ Ahead c.workflow r :=
  hleads.induction (visits_initial c.workflow starts input) fun _ _ hstep hvisits =>
    visits_step hstep hvisits.1 hvisits.2

/-- A property of a new run that every step of a run with distinct visits keeps holds
wherever moves lead. -/
theorem Leads.induction_visits {motive : Run → Prop} {starts : List String} {input : Json}
    {r : Run} (hleads : Leads c dispatcher signals (.initial starts input) r)
    (hinitial : motive (.initial starts input))
    (hstep : ∀ r r', Step c dispatcher signals r r' → Visits c.workflow r →
      Ahead c.workflow r → motive r → motive r') : motive r := by
  have hall : (Visits c.workflow r ∧ Ahead c.workflow r) ∧ motive r := by
    apply hleads.induction
    · exact ⟨visits_initial c.workflow starts input, hinitial⟩
    · rintro r r' hmoved ⟨⟨hvisits, hahead⟩, hmotive⟩
      exact ⟨visits_step hmoved hvisits hahead, hstep r r' hmoved hvisits hahead hmotive⟩
  exact hall.2

/-- A run has at most as many results as its workflow has nodes. -/
theorem Visits.length_results_le {w : Workflow} {r : Run} (hvisits : Visits w r) :
    r.results.length ≤ w.nodes.length := by
  have hsubset : r.visited ⊆ w.nodes.map Node.id := by
    intro id hid
    rw [← Workflow.isSome_node?_iff]
    exact hvisits.declared id hid
  have hle := hvisits.nodup.length_le_of_subset hsubset
  simpa [visited] using hle

end Run

end FlowGraph
