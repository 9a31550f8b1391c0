import FlowGraph.Proofs.Run.Results
import FlowGraph.Proofs.Run.Timed
import FlowGraph.Proofs.Run.Visits
import Mathlib.Data.List.Induction

/-!
# The payload of a run

A run hands one payload from node to node and keeps the result of each.  This module shows
that the two never disagree: the results come about one by one, each answered dispatch was
handed what the results before it leave, and what they leave is the output of the last one
that completed.

Main results:

- Theorem `recorded_step`: every step records at most one result, of a node passed over or
  of a dispatch that was handed the carried payload.
- Theorem `Recorded.lastOutput`: the carried payload is the output of the last result that
  completed.
- Theorem `payload_is_last_output`: the payload of every state, of every dispatch and of
  every outcome.
- Theorem `TimedRun.inFlight_called_with_last_output`: the payload that a registry is at work
  with.
-/

namespace FlowGraph

/-- The payload is the output of the last result that completed, or the input when none
did. -/
inductive LastOutput (input : Json) (results : List NodeResult) : Json → Prop where
  | input : (∀ result ∈ results, result.status ≠ .completed) → LastOutput input results input
  | output {before after : List NodeResult} {result : NodeResult} {payload : Json} :
      results = before ++ result :: after → result.status = .completed →
      result.output = some payload → (∀ later ∈ after, later.status ≠ .completed) →
      LastOutput input results payload

/-- A result that did not complete leaves the last output as it was. -/
theorem LastOutput.append_of_ne {input payload : Json} {results : List NodeResult}
    (hlast : LastOutput input results payload) {result : NodeResult}
    (hstatus : result.status ≠ .completed) :
    LastOutput input (results ++ [result]) payload := by
  have hmore {others : List NodeResult} (hothers : ∀ other ∈ others, other.status ≠ .completed) :
      ∀ other ∈ others ++ [result], other.status ≠ .completed := by
    intro other hother
    rcases List.mem_append.mp hother with hother | hother
    · exact hothers other hother
    · rwa [List.mem_singleton.mp hother]
  cases hlast with
  | input hnone => exact .input (hmore hnone)
  | @output before after last _ hresults hcompleted houtput hafter =>
      have hsplit : results ++ [result] = before ++ last :: (after ++ [result]) := by
        simp [hresults]
      exact .output hsplit hcompleted houtput (hmore hafter)

/-- A completed dispatch leaves its output. -/
theorem lastOutput_append_ok (input : Json) (results : List NodeResult) (node : Node)
    (d : Dispatched) : LastOutput input (results ++ [.ofReply node (.ok d)]) d.output :=
  .output rfl rfl rfl (by simp)

/-- Results that did not complete leave the carried payload as it was. -/
theorem carried_append_of_forall_ne {more : List NodeResult}
    (hmore : ∀ result ∈ more, result.status ≠ .completed) (input : Json)
    (results : List NodeResult) : carried input (results ++ more) = carried input results := by
  have hnone : more.filter (fun result => result.status = .completed) = [] := by
    simpa [List.filter_eq_nil_iff] using hmore
  rw [carried, carried, List.filter_append, hnone, List.append_nil]

/-! ## How results come about -/

/-- Results as a run records them, one by one: a disabled node is passed over, and any
other node is handed the payload that the results before it leave. -/
inductive Recorded (w : Workflow) (dispatcher : Dispatcher) (input : Json) :
    List NodeResult → Prop where
  | nil : Recorded w dispatcher input []
  | skipped {results : List NodeResult} {node : Node} : Recorded w dispatcher input results →
      w.node? node.id = some node → node.disabled = true →
      Recorded w dispatcher input (results ++ [.skipped node])
  | answered {results : List NodeResult} {node : Node} {reply : Reply} :
      Recorded w dispatcher input results → w.node? node.id = some node →
      node.disabled = false → dispatcher node (carried input results) reply →
      Recorded w dispatcher input (results ++ [.ofReply node reply])

namespace Recorded

variable {w : Workflow} {dispatcher : Dispatcher} {input : Json} {results : List NodeResult}

/-- The carried payload is the output of the last result that completed. -/
theorem lastOutput (hrecorded : Recorded w dispatcher input results) :
    LastOutput input results (carried input results) := by
  induction hrecorded with
  | nil => exact .input (by simp)
  | @skipped results node _ _ _ ih =>
      have hskipped : (NodeResult.skipped node).status ≠ .completed := by
        simp [NodeResult.skipped]
      rw [carried_append_of_ne hskipped]
      exact ih.append_of_ne hskipped
  | @answered results node reply _ _ _ _ ih =>
      cases reply with
      | ok d =>
          rw [carried_append_ok]
          exact lastOutput_append_ok input results node d
      | error e =>
          have hfailed : (NodeResult.ofReply node (.error e)).status ≠ .completed := by
            simp [NodeResult.ofReply]
          rw [carried_append_of_ne hfailed]
          exact ih.append_of_ne hfailed

/-- The last result follows from those before it: its node was passed over, or it was
handed the payload that they leave. -/
theorem of_concat {result : NodeResult}
    (hrecorded : Recorded w dispatcher input (results ++ [result])) :
    Recorded w dispatcher input results ∧
      (result.status ≠ .skipped → ∃ node reply, w.node? node.id = some node ∧
        node.disabled = false ∧ dispatcher node (carried input results) reply ∧
        result = .ofReply node reply) := by
  generalize hall : results ++ [result] = all at hrecorded
  cases hrecorded with
  | nil => simp at hall
  | skipped hbefore _ _ =>
      obtain ⟨rfl, hlast⟩ := List.append_inj' hall rfl
      obtain rfl := List.singleton_inj.mp hlast
      exact ⟨hbefore, fun hne => absurd rfl hne⟩
  | @answered _ node reply hbefore hnode henabled hreply =>
      obtain ⟨rfl, hlast⟩ := List.append_inj' hall rfl
      obtain rfl := List.singleton_inj.mp hlast
      exact ⟨hbefore, fun _ => ⟨node, reply, hnode, henabled, hreply, rfl⟩⟩

/-- The first results were recorded in the same way. -/
theorem of_append {more : List NodeResult}
    (hrecorded : Recorded w dispatcher input (results ++ more)) :
    Recorded w dispatcher input results := by
  induction more using List.reverseRecOn with
  | nil => rwa [List.append_nil] at hrecorded
  | append_singleton more last ih =>
      rw [← List.append_assoc] at hrecorded
      exact ih hrecorded.of_concat.1

end Recorded

namespace Run

variable {c : RunContext} {dispatcher : Dispatcher} {signals : Signal → Prop}

/-- Visiting an id records at most that its node was passed over. -/
theorem recorded_visit {input : Json} {r : Run}
    (hrecorded : Recorded c.workflow dispatcher input r.results) (id : String) :
    Recorded c.workflow dispatcher input (r.visit c id).results := by
  rcases visit_cases (c := c) r id with
    ⟨_, hvisit⟩ | ⟨node, hnode, hdisabled, hvisit⟩ | ⟨node, _, _, hvisit⟩ <;> rw [hvisit]
  · exact hrecorded
  · obtain rfl := Workflow.id_of_node? hnode
    exact hrecorded.skipped hnode hdisabled
  · exact hrecorded

/-- Every step records at most one result, of a node passed over or of a dispatch that was
handed the carried payload. -/
theorem recorded_step {input : Json} {r r' : Run} (hstep : Step c dispatcher signals r r')
    (hahead : Ahead c.workflow r) (hcarries : Carries input r)
    (hrecorded : Recorded c.workflow dispatcher input r.results) :
    Recorded c.workflow dispatcher input r'.results := by
  cases hstep with
  | @signal s _ _ => cases s <;> exact hrecorded
  | begin _ => exact hrecorded
  | cancel _ _ => exact hrecorded
  | complete _ _ _ => exact hrecorded
  | hold _ _ _ _ => exact hrecorded
  | @reach id rest _ _ _ _ => exact recorded_visit (r := { r with traversal := rest }) hrecorded id
  | @resume id _ _ _ => exact recorded_visit (r := r.announce .runResumed) hrecorded id
  | @answer node reply hphase hreply =>
      simp only [Ahead, hphase] at hahead
      rw [hcarries] at hreply
      rw [results_take]
      exact hrecorded.answered hahead.1 hahead.2.1 hreply

/-- Every state of every run carries the payload of its results, which were recorded one by
one. -/
theorem Leads.recorded {starts : List String} {input : Json} {r : Run}
    (hleads : Leads c dispatcher signals (.initial starts input) r) :
    Carries input r ∧ Recorded c.workflow dispatcher input r.results := by
  apply hleads.induction_visits
  · exact ⟨rfl, .nil⟩
  · rintro r r' hstep _ hahead ⟨hcarries, hrecorded⟩
    exact ⟨carries_step hstep hcarries, recorded_step hstep hahead hcarries hrecorded⟩

/-- Wherever a run is suspended or over, and whatever signals have arrived, its payload is
the output of the last result that completed, or the input of the run, which is an empty
object when none was given.  Every node that was not passed over was dispatched with the
payload that the results before its own leave, and the outcome shows the payload.  So it
does not change as long as nodes only fail or are passed over. -/
theorem payload_is_last_output {starts : List String} {request : Option Json} {r : Run}
    (hleads : Leads c dispatcher AnySignal (.initial starts (request.getD defaultInput)) r) :
    let input := request.getD defaultInput
    LastOutput input r.snapshot.results r.snapshot.payload ∧
      (∀ before result after, r.results = before ++ result :: after →
        result.status ≠ .skipped →
        ∃ node payload reply, c.workflow.node? node.id = some node ∧
          LastOutput input before payload ∧ dispatcher node payload reply ∧
          result = .ofReply node reply) ∧
      (∀ out, r.outcome? = some out →
        out.output = r.payload ∧ LastOutput input out.results out.output) ∧
      ∀ r' more, Leads c dispatcher AnySignal r r' → r'.results = r.results ++ more →
        (∀ result ∈ more, result.status ≠ .completed) → r'.payload = r.payload := by
  intro input
  rcases hleads.recorded with ⟨hcarries, hrecorded⟩
  have hlast : LastOutput input r.results r.payload := hcarries ▸ hrecorded.lastOutput
  refine ⟨hlast, ?_, ?_, ?_⟩
  · intro before result after hresults hstatus
    rw [hresults, List.append_cons] at hrecorded
    rcases hrecorded.of_append.of_concat with ⟨hbefore, hanswered⟩
    rcases hanswered hstatus with ⟨node, reply, hnode, _, hreply, rfl⟩
    exact ⟨node, _, reply, hnode, hbefore.lastOutput, hreply, rfl⟩
  · intro out hout
    unfold outcome? at hout
    split at hout
    · obtain rfl := Option.some.inj hout
      exact ⟨rfl, hlast⟩
    · contradiction
  · intro r' more hlater hresults hmore
    have hall : Leads c dispatcher AnySignal (.initial starts input) r' := hleads.trans hlater
    have hcarries' : Carries input r' := hall.recorded.1
    rw [hcarries', hresults, carried_append_of_forall_ne hmore, hcarries]

/-- In the loop, the choice is handed the output of the trigger, and its failure ends the
run with that output. -/
theorem payload_is_last_output_choiceLoop :
    let c : RunContext := ⟨.choiceLoop, {}⟩
    let trigger : Node := .new "start" "flow.manualTrigger"
    let choice : Node := .new "check" "flow.if"
    let e : ActivityError := ⟨"check", .failed "unplugged", 1⟩
    let dispatcher : Dispatcher := fun node payload reply =>
      (node.id = "start" ∧ reply = .ok ⟨.bool true, 1⟩) ∨
        (node.id = "check" ∧ payload = .bool true ∧ reply = .error e)
    let r := (((initial ["start"] defaultInput).wake c).answer c (.ok ⟨.bool true, 1⟩)).answer c
      (.error e)
    Leads c dispatcher AnySignal (.initial ["start"] defaultInput) r ∧
      r.results = [.ofReply trigger (.ok ⟨.bool true, 1⟩), .ofReply choice (.error e)] ∧
      LastOutput defaultInput r.results r.payload ∧ r.payload = .bool true ∧
      r.outcome?.map Outcome.output = some (.bool true) := by
  intro c trigger choice e dispatcher r
  let begun : Run := ⟨.dispatching trigger, ⟨[], ∅⟩, defaultInput, [],
    [.runStarted c.workflow.name, .nodeStarted trigger.id trigger.typeTag], false, false⟩
  have hbegun : (initial ["start"] defaultInput).wake c = begun :=
    wake_initial [] Workflow.node?_choiceLoop rfl defaultInput
  let taken := begun.take c trigger (.ok ⟨.bool true, 1⟩)
  let rest : Traversal := ⟨[], (∅ : Std.HashSet String).insert "start"⟩
  have hnext : taken.traversal.next = (some choice.id, rest) := Traversal.next_choiceLoop _
  let chosen : Run := { { taken with traversal := rest }.announce
    (.nodeStarted choice.id choice.typeTag) with phase := .dispatching choice }
  have hchosen : begun.answer c (.ok ⟨.bool true, 1⟩) = chosen :=
    (answer_of_dispatching c rfl _).trans
      (settle_of_enabled c rfl rfl rfl hnext Workflow.node?_check_choiceLoop rfl)
  have hr : r = chosen.answer c (.error e) := by
    rw [← hchosen, ← hbegun]
  have hlast := answer_failed (c := c) (r := chosen) rfl rfl e
  have hleads : Leads c dispatcher AnySignal (.initial ["start"] defaultInput) r := by
    have hfirst : Move c dispatcher AnySignal (.initial ["start"] defaultInput) begun :=
      hbegun ▸ .wake
    have hsecond : Move c dispatcher AnySignal begun chosen :=
      hchosen ▸ .answer rfl (.inl ⟨rfl, rfl⟩)
    rw [hr]
    exact .tail (.tail (.single hfirst) hsecond) (.answer rfl (.inr ⟨rfl, rfl, rfl⟩))
  have hcarried := @payload_is_last_output c dispatcher ["start"] none r hleads
  refine ⟨hleads, ?_, hcarried.1, ?_, ?_⟩ <;> rw [hr, hlast] <;> rfl

end Run

/-- Whenever a timed run is looked at, the registry is at work on a node with the output of
the last result that completed, or with the input of the run. -/
theorem TimedRun.inFlight_called_with_last_output {registry : Registry} {clock : Clock}
    {w : Workflow} {defaults : RouterDefaults} {explicit : Option (List String)}
    {request : Option Json} {steps : List TimelineStep} {patienceMs : Nat} {record : TimedRecord}
    (hrun : w.runTimed registry clock defaults explicit request steps patienceMs = .ok record)
    {t : TimedRun} (ht : t = record.last ∨ t ∈ record.looks) {flight : DispatchRecord}
    (hflight : t.inFlight = some flight) :
    ∃ node payload now, t.run.phase = .dispatching node ∧
      flight = registry.dispatch clock node payload now ∧
      LastOutput (request.getD defaultInput) t.run.results payload := by
  rcases TimedRun.led_runTimed hrun with ⟨starts, _, hled⟩
  rcases hled t ht with ⟨hleads, hflies⟩
  rcases hflies flight hflight with ⟨node, now, hphase, rfl⟩
  rcases hleads.recorded with ⟨hcarries, hrecorded⟩
  exact ⟨node, t.run.payload, now, hphase, rfl, hcarries ▸ hrecorded.lastOutput⟩

end FlowGraph
