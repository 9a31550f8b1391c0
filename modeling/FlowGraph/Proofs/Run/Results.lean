import FlowGraph.Proofs.Run.Steps

/-!
# Results and the carried payload

A run carries one payload from node to node.  This module shows that its results
only grow and that they determine the payload: it is the output of the last node
that completed, and the input before that.

Main results:

- Theorem `results_prefix_step`: every step keeps the results so far.
- Theorem `carries_step`: every step keeps the payload that of the results.
-/

namespace FlowGraph

/-- The payload that a run carries after some results: the output of the last
completed node, or the input before that. -/
def carried (input : Json) (results : List NodeResult) : Json :=
  (((results.filter fun result => result.status = .completed).getLast?).bind
    NodeResult.output).getD input

/-- A node that did not complete leaves the payload as it was. -/
theorem carried_append_of_ne {result : NodeResult} (hstatus : result.status ≠ .completed)
    (input : Json) (results : List NodeResult) :
    carried input (results ++ [result]) = carried input results := by
  simp [carried, hstatus]

/-- A completed node leaves its output as the payload. -/
theorem carried_append_ok (input : Json) (results : List NodeResult) (node : Node)
    (d : Dispatched) :
    carried input (results ++ [.ofReply node (.ok d)]) = d.output := by
  simp [carried, NodeResult.ofReply]

namespace Run

variable {c : RunContext} {dispatcher : Dispatcher} {signals : Signal → Prop}

/-! ## Results only grow -/

/-- Visiting an id keeps the results so far. -/
theorem results_prefix_visit (r : Run) (id : String) : r.results <+: (r.visit c id).results := by
  rcases visit_cases (c := c) r id with
    ⟨_, hvisit⟩ | ⟨node, _, _, hvisit⟩ | ⟨node, _, _, hvisit⟩
  · exact hvisit ▸ List.prefix_rfl
  · exact hvisit ▸ List.prefix_append _ _
  · exact hvisit ▸ List.prefix_rfl

/-- An answer adds the result of the dispatched node. -/
theorem results_take (r : Run) (node : Node) (reply : Reply) :
    (r.take c node reply).results = r.results ++ [.ofReply node reply] := by
  rcases take_cases (c := c) r node reply with
    ⟨d, rfl, htake⟩ | ⟨e, rfl, _, htake⟩ | ⟨e, rfl, _, htake⟩ <;> rw [htake] <;> rfl

/-- Every step keeps the results so far. -/
theorem results_prefix_step {r r' : Run} (hstep : Step c dispatcher signals r r') :
    r.results <+: r'.results := by
  cases hstep with
  | @signal s _ _ => cases s <;> exact List.prefix_rfl
  | begin _ => exact List.prefix_rfl
  | cancel _ _ => exact List.prefix_rfl
  | complete _ _ _ => exact List.prefix_rfl
  | hold _ _ _ _ => exact List.prefix_rfl
  | @reach id rest _ _ _ _ => exact results_prefix_visit { r with traversal := rest } id
  | @resume id _ _ _ => exact results_prefix_visit (r.announce .runResumed) id
  | answer _ _ =>
      rw [results_take]
      exact List.prefix_append _ _

/-- Later states keep the results so far. -/
theorem results_prefix_steps {r r' : Run} (hsteps : Steps c dispatcher signals r r') :
    r.results <+: r'.results := by
  induction hsteps with
  | refl => exact List.prefix_rfl
  | tail _ hlast ih => exact ih.trans (results_prefix_step hlast)

/-- Answering the dispatch in flight leaves one more result. -/
theorem length_results_answer {r : Run} {node : Node} (hphase : r.phase = .dispatching node)
    (reply : Reply) : r.results.length < (r.answer c reply).results.length := by
  have hlonger := (results_prefix_steps (steps_settle c (fun _ _ _ => False) NoSignal
    (r.take c node reply))).length_le
  rw [results_take, List.length_append, List.length_singleton] at hlonger
  rw [answer_of_dispatching c hphase]
  omega

/-! ## Results determine the payload -/

/-- The payload is the one that the results leave. -/
def Carries (input : Json) (r : Run) : Prop := r.payload = carried input r.results

/-- Visiting an id leaves the payload to the results. -/
theorem carries_visit {input : Json} {r : Run} (hcarries : Carries input r) (id : String) :
    Carries input (r.visit c id) := by
  rcases visit_cases (c := c) r id with
    ⟨_, hvisit⟩ | ⟨node, _, _, hvisit⟩ | ⟨node, _, _, hvisit⟩ <;> rw [hvisit]
  · exact hcarries
  · have hskipped : (NodeResult.skipped node).status ≠ .completed := by
      simp [NodeResult.skipped]
    exact hcarries.trans (carried_append_of_ne hskipped input r.results).symm
  · exact hcarries

/-- An answer leaves its output as the payload, or the payload as it was. -/
theorem carries_take {input : Json} {r : Run} (hcarries : Carries input r) (node : Node)
    (reply : Reply) : Carries input (r.take c node reply) := by
  have hfailed (e : ActivityError) : (NodeResult.ofReply node (.error e)).status ≠ .completed := by
    simp [NodeResult.ofReply]
  rcases take_cases (c := c) r node reply with
    ⟨d, _, htake⟩ | ⟨e, _, _, htake⟩ | ⟨e, _, _, htake⟩ <;> rw [htake]
  · exact (carried_append_ok input r.results node d).symm
  · exact hcarries.trans (carried_append_of_ne (hfailed e) input r.results).symm
  · exact hcarries.trans (carried_append_of_ne (hfailed e) input r.results).symm

/-- Every step keeps the payload that of the results. -/
theorem carries_step {input : Json} {r r' : Run} (hstep : Step c dispatcher signals r r')
    (hcarries : Carries input r) : Carries input r' := by
  cases hstep with
  | @signal s _ _ => cases s <;> exact hcarries
  | begin _ => exact hcarries
  | cancel _ _ => exact hcarries
  | complete _ _ _ => exact hcarries
  | hold _ _ _ _ => exact hcarries
  | @reach id rest _ _ _ _ =>
      exact carries_visit (r := { r with traversal := rest }) hcarries id
  | @resume id _ _ _ =>
      exact carries_visit (r := r.announce .runResumed) hcarries id
  | @answer node reply _ _ => exact carries_take hcarries node reply

/-- A new run carries its input, and steps keep the payload that of the results. -/
theorem carries_steps {starts : List String} {input : Json} {r : Run}
    (hsteps : Steps c dispatcher signals (.initial starts input) r) : Carries input r := by
  induction hsteps with
  | refl => rfl
  | tail _ hlast ih => exact carries_step hlast ih

end Run

end FlowGraph
