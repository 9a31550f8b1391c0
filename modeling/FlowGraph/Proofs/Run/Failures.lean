import FlowGraph.Proofs.Run.Visits

/-!
# Failures of a run

A node that fails is passed over when its options say so, and ends the run
otherwise.  This module shows that nothing comes after a failure that ends a run,
and that a run without a request to cancel ends in no third way.

Main results:

- Theorem `failures_step`: only the last result may be a failure that ends a run.
- Theorem `dispatches_step`: the started nodes are those whose results were not
  skipped, and the one being dispatched.
- Theorem `uncancelled_step`: only a request cancels a run.
-/

namespace FlowGraph

/-- The node that an event starts. -/
def Event.startedId? : Event → Option String
  | .nodeStarted nodeId _ => some nodeId
  | _ => none

/-- The ids of the started nodes. -/
def startedIds (events : List Event) : List String := events.filterMap Event.startedId?

/-- The ids of the results of nodes that were not passed over. -/
def dispatchedIds (results : List NodeResult) : List String :=
  (results.filter fun result => result.status ≠ .skipped).map NodeResult.nodeId

/-- Every failure among the results is that of a node that allows it. -/
def Tolerated (w : Workflow) (results : List NodeResult) : Prop :=
  ∀ result ∈ results, result.status = .failed →
    ∃ node, w.node? result.nodeId = some node ∧ node.options.continueOnFail = true

/-- The result is the failure of a node that does not allow it. -/
def Fatal (w : Workflow) (result : NodeResult) : Prop :=
  result.status = .failed ∧
    ∃ node, w.node? result.nodeId = some node ∧ node.options.continueOnFail = false

@[simp]
theorem startedIds_nil : startedIds [] = [] :=
  rfl

@[simp]
theorem startedIds_cons (event : Event) (rest : List Event) :
    startedIds (event :: rest) = event.startedId?.toList ++ startedIds rest := by
  cases hstarted : event.startedId? <;> simp [startedIds, hstarted]

@[simp]
theorem startedIds_append (events more : List Event) :
    startedIds (events ++ more) = startedIds events ++ startedIds more :=
  List.filterMap_append

@[simp]
theorem dispatchedIds_append (results : List NodeResult) (result : NodeResult) :
    dispatchedIds (results ++ [result]) =
      dispatchedIds results ++ if result.status = .skipped then [] else [result.nodeId] := by
  by_cases hskipped : result.status = .skipped <;> simp [dispatchedIds, hskipped]

/-- One more result that is no failure, or an allowed one, changes nothing. -/
theorem Tolerated.append {w : Workflow} {results : List NodeResult}
    (htolerated : Tolerated w results) {result : NodeResult}
    (hresult : result.status = .failed →
      ∃ node, w.node? result.nodeId = some node ∧ node.options.continueOnFail = true) :
    Tolerated w (results ++ [result]) := by
  intro other hother
  rw [List.mem_append, List.mem_singleton] at hother
  rcases hother with hother | rfl
  · exact htolerated other hother
  · exact hresult

/-- A failure that is not allowed is not among those that are. -/
theorem Tolerated.not_mem_of_fatal {w : Workflow} {results : List NodeResult}
    (htolerated : Tolerated w results) {result : NodeResult} (hfatal : Fatal w result) :
    result ∉ results := by
  intro hmem
  rcases hfatal with ⟨hfailed, node, hnode, hstops⟩
  rcases htolerated result hmem hfailed with ⟨other, hother, hcontinues⟩
  obtain rfl : node = other := Option.some.inj (hnode.symm.trans hother)
  simp [hstops] at hcontinues

namespace Run

/-! ## Nothing comes after a failure that ends a run -/

/-- All failures are allowed, except for the last result of a run that failed. -/
def Failures (w : Workflow) (r : Run) : Prop :=
  match r.phase with
  | .ended (.failed e) =>
      ∃ before last, r.results = before ++ [last] ∧ Tolerated w before ∧ Fatal w last ∧
        last.error = some e.message
  | _ => Tolerated w r.results

/-- Visiting an id fails nothing. -/
theorem failures_visit {c : RunContext} {r : Run} (htolerated : Tolerated c.workflow r.results)
    (id : String) : Failures c.workflow (r.visit c id) := by
  rcases visit_cases (c := c) r id with
    ⟨_, hvisit⟩ | ⟨node, _, _, hvisit⟩ | ⟨node, _, _, hvisit⟩ <;> rw [hvisit]
  · exact htolerated
  · exact htolerated.append (by simp [NodeResult.skipped])
  · exact htolerated

/-- An answer adds a failure that is allowed, or the one that ends the run. -/
theorem failures_take {c : RunContext} {r : Run} (htolerated : Tolerated c.workflow r.results)
    {node : Node} (hnode : c.workflow.node? node.id = some node) (reply : Reply) :
    Failures c.workflow (r.take c node reply) := by
  rcases take_cases (c := c) r node reply with
    ⟨d, _, htake⟩ | ⟨e, _, hcontinues, htake⟩ | ⟨e, _, hstops, htake⟩ <;> rw [htake]
  · exact htolerated.append (by simp [NodeResult.ofReply])
  · exact htolerated.append fun _ => ⟨node, hnode, hcontinues⟩
  · exact ⟨r.results, .ofReply node (.error e), rfl, htolerated, ⟨rfl, node, hnode, hstops⟩, rfl⟩

variable {c : RunContext} {dispatcher : Dispatcher} {signals : Signal → Prop}

/-- Only the last result may be a failure that ends a run. -/
theorem failures_step {r r' : Run} (hstep : Step c dispatcher signals r r')
    (hahead : Ahead c.workflow r) (hfailures : Failures c.workflow r) :
    Failures c.workflow r' := by
  cases hstep with
  | @signal s _ _ => cases s <;> exact hfailures
  | begin hphase =>
      simp only [Failures, hphase] at hfailures
      exact hfailures
  | cancel hphase _ =>
      rcases hphase with hphase | ⟨id, hphase⟩ <;> simp only [Failures, hphase] at hfailures <;>
        exact hfailures
  | complete hphase _ _ =>
      simp only [Failures, hphase] at hfailures
      exact hfailures
  | hold hphase _ _ _ =>
      simp only [Failures, hphase] at hfailures
      exact hfailures
  | @reach id rest hphase _ _ _ =>
      simp only [Failures, hphase] at hfailures
      exact failures_visit (r := { r with traversal := rest }) hfailures id
  | @resume id hphase _ _ =>
      simp only [Failures, hphase] at hfailures
      exact failures_visit (r := r.announce .runResumed) hfailures id
  | answer hphase _ =>
      simp only [Failures, hphase] at hfailures
      simp only [Ahead, hphase] at hahead
      exact failures_take hfailures hahead.1 _

/-- In every state of every run, only the last result may be a failure that ends
the run. -/
theorem Leads.failures {starts : List String} {input : Json} {r : Run}
    (hleads : Leads c dispatcher signals (.initial starts input) r) : Failures c.workflow r := by
  have hinitial : Failures c.workflow (.initial starts input) := by
    intro result hresult
    simp [initial] at hresult
  apply hleads.induction_visits hinitial
  intro r r' hstep _ hahead hfailures
  exact failures_step hstep hahead hfailures

/-- While a run is not over, all its failures are allowed. -/
theorem Failures.tolerated {w : Workflow} {r : Run} (hfailures : Failures w r)
    (hover : r.isOver = false) : Tolerated w r.results := by
  unfold Failures at hfailures
  split at hfailures
  · rename_i e hphase
    simp [isOver, hphase] at hover
  · exact hfailures

/-! ## Every dispatch leaves its result -/

/-- The id of the node being dispatched. -/
def inFlight (r : Run) : List String :=
  match r.phase with
  | .dispatching node => [node.id]
  | _ => []

/-- The started nodes are those with a result that was not skipped, and the node
being dispatched. -/
def Dispatches (r : Run) : Prop := startedIds r.events = dispatchedIds r.results ++ r.inFlight

/-- Without a dispatch in flight, the started nodes are those with a result that
was not skipped. -/
theorem dispatches_of_idle {r : Run} (hidle : r.inFlight = [])
    (hstarted : startedIds r.events = dispatchedIds r.results) : Dispatches r := by
  rw [Dispatches, hidle, List.append_nil]
  exact hstarted

/-- An event that starts no node changes nothing. -/
theorem startedIds_announce {r : Run} {event : Event} (hevent : event.startedId? = none)
    (hstarted : startedIds r.events = dispatchedIds r.results) :
    startedIds (r.announce event).events = dispatchedIds r.results := by
  simp [announce, hevent, hstarted]

/-- Visiting an id starts the node that is dispatched, if any. -/
theorem dispatches_visit {c : RunContext} {r : Run}
    (hstarted : startedIds r.events = dispatchedIds r.results) (id : String) :
    Dispatches (r.visit c id) := by
  rcases visit_cases (c := c) r id with
    ⟨_, hvisit⟩ | ⟨node, _, _, hvisit⟩ | ⟨node, _, _, hvisit⟩ <;> rw [hvisit]
  · exact dispatches_of_idle rfl hstarted
  · apply dispatches_of_idle rfl
    simp [record, announce, hstarted, Event.startedId?, NodeResult.skipped]
  · simp [Dispatches, announce, inFlight, hstarted, Event.startedId?]

/-- An answer gives the dispatched node its result and starts no other. -/
theorem dispatches_take {c : RunContext} {r : Run} {node : Node}
    (hstarted : startedIds r.events = dispatchedIds r.results ++ [node.id]) (reply : Reply) :
    Dispatches (r.take c node reply) := by
  rcases take_cases (c := c) r node reply with
    ⟨d, _, htake⟩ | ⟨e, _, _, htake⟩ | ⟨e, _, _, htake⟩ <;> rw [htake] <;>
    apply dispatches_of_idle rfl
  · simp [record, announce, hstarted, Event.startedId?, NodeResult.ofReply]
  · simp [record, announce, hstarted, Event.startedId?, NodeResult.ofReply]
  · simp [record, announce, finish, hstarted, Event.startedId?, NodeResult.ofReply]

/-- The started nodes are those whose results were not skipped, and the one being
dispatched. -/
theorem dispatches_step {r r' : Run} (hstep : Step c dispatcher signals r r')
    (hdispatches : Dispatches r) : Dispatches r' := by
  unfold Dispatches at hdispatches
  cases hstep with
  | @signal s _ _ => cases s <;> exact hdispatches
  | begin hphase =>
      simp only [inFlight, hphase, List.append_nil] at hdispatches
      exact dispatches_of_idle rfl (startedIds_announce rfl hdispatches)
  | cancel hphase _ =>
      rcases hphase with hphase | ⟨id, hphase⟩ <;>
        simp only [inFlight, hphase, List.append_nil] at hdispatches <;>
        exact dispatches_of_idle rfl (startedIds_announce rfl hdispatches)
  | @complete rest hphase _ _ =>
      simp only [inFlight, hphase, List.append_nil] at hdispatches
      exact dispatches_of_idle rfl
        (startedIds_announce (r := { r with traversal := rest }) rfl hdispatches)
  | @hold id rest hphase _ _ _ =>
      simp only [inFlight, hphase, List.append_nil] at hdispatches
      exact dispatches_of_idle rfl
        (startedIds_announce (r := { r with traversal := rest }) rfl hdispatches)
  | @reach id rest hphase _ _ _ =>
      simp only [inFlight, hphase, List.append_nil] at hdispatches
      exact dispatches_visit (r := { r with traversal := rest }) hdispatches id
  | @resume id hphase _ _ =>
      simp only [inFlight, hphase, List.append_nil] at hdispatches
      exact dispatches_visit (startedIds_announce rfl hdispatches) id
  | answer hphase _ =>
      simp only [inFlight, hphase] at hdispatches
      exact dispatches_take hdispatches _

/-- In every state of every run, the started nodes are those whose results were not skipped,
and the one being dispatched. -/
theorem Leads.dispatches {starts : List String} {input : Json} {r : Run}
    (hleads : Leads c dispatcher signals (.initial starts input) r) : Dispatches r :=
  hleads.induction (dispatches_of_idle rfl rfl) fun _ _ => dispatches_step

/-! ## Only a request cancels a run -/

/-- The run has not been asked to cancel and has not been cancelled. -/
def Uncancelled (r : Run) : Prop := r.cancelled = false ∧ r.phase ≠ .ended .cancelled

/-- Visiting an id cancels nothing. -/
theorem uncancelled_visit {c : RunContext} {r : Run} (hcancelled : r.cancelled = false)
    (id : String) : Uncancelled (r.visit c id) := by
  rcases visit_cases (c := c) r id with
    ⟨_, hvisit⟩ | ⟨node, _, _, hvisit⟩ | ⟨node, _, _, hvisit⟩ <;> rw [hvisit]
  · exact ⟨hcancelled, by simp⟩
  · exact ⟨hcancelled, by simp [record]⟩
  · exact ⟨hcancelled, by simp⟩

/-- Only a request cancels a run. -/
theorem uncancelled_step {r r' : Run} (hsignals : ¬ signals .cancel)
    (hstep : Step c dispatcher signals r r') (huncancelled : Uncancelled r) :
    Uncancelled r' := by
  cases hstep with
  | @signal s _ hsignal =>
      cases s with
      | pause => exact huncancelled
      | resume => exact huncancelled
      | cancel => exact absurd hsignal hsignals
  | begin _ => exact ⟨huncancelled.1, by simp⟩
  | cancel _ hcancelled => exact absurd (huncancelled.1.symm.trans hcancelled) (by simp)
  | complete _ _ _ => exact ⟨huncancelled.1, by simp [finish]⟩
  | hold _ _ _ _ => exact ⟨huncancelled.1, by simp⟩
  | @reach id rest _ _ _ _ =>
      exact uncancelled_visit (r := { r with traversal := rest }) huncancelled.1 id
  | @resume id _ _ _ =>
      exact uncancelled_visit (r := r.announce .runResumed) huncancelled.1 id
  | @answer node reply _ _ =>
      rcases take_cases (c := c) r node reply with
        ⟨d, _, htake⟩ | ⟨e, _, _, htake⟩ | ⟨e, _, _, htake⟩ <;> rw [htake]
      · exact ⟨huncancelled.1, by simp [record]⟩
      · exact ⟨huncancelled.1, by simp [record]⟩
      · exact ⟨huncancelled.1, by simp [finish]⟩

/-- Without a request to cancel, no state of a run is cancelled. -/
theorem Leads.uncancelled {starts : List String} {input : Json} {r : Run}
    (hleads : Leads c dispatcher signals (.initial starts input) r)
    (hsignals : ¬ signals .cancel) : Uncancelled r :=
  hleads.induction ⟨rfl, by simp [initial]⟩ fun _ _ hstep huncancelled =>
    uncancelled_step hsignals hstep huncancelled

end Run

end FlowGraph
