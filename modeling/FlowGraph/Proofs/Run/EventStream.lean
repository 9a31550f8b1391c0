import FlowGraph.Proofs.Activity.Dispatch
import FlowGraph.Proofs.Run.Timed
import FlowGraph.Proofs.Run.Visits

/-!
# The event stream of a run

A run announces what it does as it goes and keeps a result of every node that it
visits.  This module shows that the two tell the same story: the events are a
beginning, one block for each visited node, and one end, and the blocks report the
results in order.  Between two blocks nothing is announced, so every state of a run
has a tail of events that belongs to the block that is being written.

Main results:

- Theorem `Registry.dispatcher_namesNode`: the errors of a registry carry the id of
  the dispatched node.
- Theorem `told_step`: every step continues the story.
- Theorem `foldl_keep_eq`: results of distinct nodes never replace one another.
- Theorem `events_account`: the events of a run that is over, and its outcome.
-/

namespace FlowGraph

/-! ## The errors of a dispatcher -/

/-- The errors of the dispatcher carry the id of the dispatched node. -/
def Dispatcher.NamesNode (dispatcher : Dispatcher) : Prop :=
  ∀ node payload e, dispatcher node payload (.error e) → e.nodeId = node.id

/-- The errors of a registry carry the id of the dispatched node. -/
theorem Registry.dispatcher_namesNode (registry : Registry) (clock : Clock) :
    (registry.dispatcher clock).NamesNode := by
  rintro node payload e ⟨now, hreply⟩
  rcases registry.dispatch_cases clock node payload now with ⟨_, hnone⟩ | ⟨_, reply, hsome, hnames⟩
  · rw [hnone] at hreply
    contradiction
  · exact hnames e (Option.some.inj (hsome.symm.trans hreply))

/-! ## Results under the ids of their nodes -/

namespace NodeResult

/-- Keep a result under the id of its node, in place of one that was kept there. -/
def keep (kept : List NodeResult) (result : NodeResult) : List NodeResult :=
  if kept.any fun old => old.nodeId = result.nodeId then
    kept.map fun old => if old.nodeId = result.nodeId then result else old
  else kept ++ [result]

/-- Results of distinct nodes never replace one another. -/
theorem foldl_keep_eq {kept results : List NodeResult}
    (hnodup : ((kept ++ results).map NodeResult.nodeId).Nodup) :
    results.foldl keep kept = kept ++ results := by
  induction results generalizing kept with
  | nil => simp
  | cons result rest ih =>
      have hnew : keep kept result = kept ++ [result] := by
        have hfresh : ∀ old ∈ kept, old.nodeId ≠ result.nodeId := by
          intro old hold heq
          rw [List.map_append, List.nodup_append] at hnodup
          exact hnodup.2.2 _ (List.mem_map_of_mem hold) _ List.mem_cons_self heq
        exact if_neg (by simpa using hfresh)
      have happend : kept ++ [result] ++ rest = kept ++ result :: rest := by
        rw [List.append_assoc, List.singleton_append]
      rw [List.foldl_cons, hnew, ih (happend ▸ hnodup), happend]

end NodeResult

/-! ## Blocks of events -/

/-- A visited node: whether the run was held before it, and the answer of its
dispatch unless it was passed over. -/
structure VisitRecord where
  node : Node
  held : Bool
  reply : Option Reply

/-- The events of a run that was held before a node and went on, or of one that
was not held. -/
def heldEvents (held : Bool) (id : String) : List Event :=
  if held then [.runPaused id, .runResumed] else []

namespace VisitRecord

/-- The event that reports how the visit went. -/
def report (visit : VisitRecord) : Event :=
  match visit.reply with
  | none => .nodeSkipped visit.node.id
  | some (.ok d) => .nodeCompleted visit.node.id d.output d.attempts
  | some (.error e) => .nodeFailed visit.node.id e.message e.attempts

/-- The block of events of the visit. -/
def events (visit : VisitRecord) : List Event :=
  let started := visit.reply.map fun _ => Event.nodeStarted visit.node.id visit.node.typeTag
  heldEvents visit.held visit.node.id ++ (started.toList ++ [visit.report])

/-- The result that the visit leaves. -/
def result (visit : VisitRecord) : NodeResult :=
  match visit.reply with
  | none => .skipped visit.node
  | some reply => .ofReply visit.node reply

/-- The visited node is the workflow's, and it was passed over just if it is
disabled. -/
def Faithful (w : Workflow) (visit : VisitRecord) : Prop :=
  w.node? visit.node.id = some visit.node ∧ (visit.node.disabled = true ↔ visit.reply = none)

/-- The result of a visit is that of its node. -/
@[simp]
theorem nodeId_result (visit : VisitRecord) : visit.result.nodeId = visit.node.id := by
  rcases visit with ⟨node, held, _ | d | e⟩ <;> rfl

end VisitRecord

namespace Event

/-- The event reports how the visit of a node went. -/
def isReport : Event → Bool
  | .nodeSkipped _ => true
  | .nodeCompleted _ _ _ => true
  | .nodeFailed _ _ _ => true
  | _ => false

/-- The event announces the end of a run. -/
def isEnding : Event → Bool
  | .runCompleted => true
  | .runCancelled => true
  | .runFailed _ => true
  | _ => false

/-- The event reports what the result keeps: the node, how its visit went, its
output or its error, and the attempts after the first. -/
def Reports (event : Event) (result : NodeResult) : Prop :=
  match event with
  | .nodeSkipped id =>
      result.nodeId = id ∧ result.status = .skipped ∧ result.output = none ∧
        result.error = none ∧ result.retryCount = 0
  | .nodeCompleted id output attempts =>
      result.nodeId = id ∧ result.status = .completed ∧ result.output = some output ∧
        result.error = none ∧ result.retryCount = attempts - 1
  | .nodeFailed id error attempts =>
      result.nodeId = id ∧ result.status = .failed ∧ result.output = none ∧
        result.error = some error ∧ result.retryCount = attempts - 1
  | _ => False

/-- The event announces the end that the outcome shows. -/
def Closes (event : Event) (out : Outcome) : Prop :=
  match event with
  | .runCompleted => out.status = .completed ∧ out.error = none
  | .runCancelled => out.status = .cancelled ∧ out.error = none
  | .runFailed error => out.status = .failed ∧ out.error = some error
  | _ => False

end Event

namespace VisitRecord

/-- The report of a visit tells what its result keeps. -/
theorem reports (visit : VisitRecord) : visit.report.Reports visit.result := by
  rcases visit with ⟨node, held, _ | d | e⟩ <;> exact ⟨rfl, rfl, rfl, rfl, rfl⟩

/-- A block reports once. -/
theorem filter_isReport_events (visit : VisitRecord) :
    visit.events.filter Event.isReport = [visit.report] := by
  rcases visit with ⟨node, _ | _, _ | d | e⟩ <;> rfl

/-- A block does not end the run. -/
theorem filter_isEnding_events (visit : VisitRecord) :
    visit.events.filter Event.isEnding = [] := by
  rcases visit with ⟨node, _ | _, _ | d | e⟩ <;> rfl

end VisitRecord

/-- The event that announces an ending. -/
def Ending.event : Ending → Event
  | .completed => .runCompleted
  | .cancelled => .runCancelled
  | .failed error => .runFailed error.message

namespace Run

/-! ## What the events of a state tell -/

/-- The results are those of some visits, and the events are the beginning, the
blocks of these visits, and a tail. -/
def Tells (w : Workflow) (tail : List Event) (r : Run) : Prop :=
  ∃ visits : List VisitRecord, (∀ visit ∈ visits, visit.Faithful w) ∧
    r.results = visits.map VisitRecord.result ∧
    r.events = .runStarted w.name :: (visits.flatMap VisitRecord.events ++ tail)

/-- What the events of a state tell.  The tail is the part of the block that is
being written; at the end it is the event that ends the run, and before it the
pause that a cancellation ended, if any. -/
def Told (w : Workflow) (r : Run) : Prop :=
  match r.phase with
  | .pending => r.results = [] ∧ r.events = []
  | .between => Tells w [] r
  | .dispatching node =>
      ∃ held, Tells w (heldEvents held node.id ++ [.nodeStarted node.id node.typeTag]) r
  | .held id => Tells w [.runPaused id] r
  | .ended ending =>
      ∃ before : Option String, (before.isSome = true → ending = .cancelled) ∧
        Tells w ((before.map Event.runPaused).toList ++ [ending.event]) r

/-- The ids that wait, and the one that a run is held before, are declared. -/
structure WaitsDeclared (w : Workflow) (r : Run) : Prop where
  queue : ∀ id ∈ r.traversal.queue, (w.node? id).isSome = true
  held : ∀ id, r.phase = .held id → (w.node? id).isSome = true

/-- Returning announces the ending. -/
theorem finish_eq (r : Run) (ending : Ending) :
    r.finish ending = { r.announce ending.event with phase := .ended ending } := by
  cases ending <;> rfl

/-- An announced event is added to the tail. -/
theorem Tells.announce {w : Workflow} {tail : List Event} {r : Run} (htells : Tells w tail r)
    (event : Event) : Tells w (tail ++ [event]) (r.announce event) := by
  rcases htells with ⟨visits, hfaithful, hresults, hevents⟩
  refine ⟨visits, hfaithful, hresults, ?_⟩
  simp [Run.announce, hevents]

/-- The report of a visit closes its block, and its result is kept. -/
theorem Tells.record {w : Workflow} {tail : List Event} {r : Run} (htells : Tells w tail r)
    {visit : VisitRecord} (hfaithful : visit.Faithful w)
    (hblock : tail ++ [visit.report] = visit.events) (successors : List String) :
    Tells w [] (r.record visit.result visit.report successors) := by
  rcases htells with ⟨visits, hall, hresults, hevents⟩
  refine ⟨visits ++ [visit], ?_, ?_, ?_⟩
  · intro other hother
    rw [List.mem_append, List.mem_singleton] at hother
    rcases hother with hother | rfl
    · exact hall other hother
    · exact hfaithful
  · simp [Run.record, Run.announce, hresults]
  · simp [Run.record, Run.announce, hevents, ← hblock]

/-- Returning ends the story; a pause may come last only if the run is cancelled. -/
theorem told_finish {w : Workflow} (before : Option String) {ending : Ending} {r : Run}
    (hbefore : before.isSome = true → ending = .cancelled)
    (htells : Tells w (before.map Event.runPaused).toList r) : Told w (r.finish ending) := by
  rw [finish_eq]
  exact ⟨before, hbefore, htells.announce ending.event⟩

variable {c : RunContext} {dispatcher : Dispatcher} {signals : Signal → Prop}

/-- Visiting an id writes the block of a disabled node, and begins that of an
enabled one. -/
theorem told_visit (held : Bool) {id : String} {r : Run}
    (hdeclared : held = true → (c.workflow.node? id).isSome = true)
    (htells : Tells c.workflow (heldEvents held id) r) : Told c.workflow (r.visit c id) := by
  rcases visit_cases (c := c) r id with
    ⟨hnone, hvisit⟩ | ⟨node, hnode, hdisabled, hvisit⟩ | ⟨node, hnode, _, hvisit⟩ <;> rw [hvisit]
  · cases held with
    | false => exact htells
    | true => simp [hnone] at hdeclared
  · obtain rfl := Workflow.id_of_node? hnode
    let visit : VisitRecord := ⟨node, held, none⟩
    have hfaithful : visit.Faithful c.workflow := ⟨hnode, by simp [visit, hdisabled]⟩
    have hrecord : Tells c.workflow [] (r.record visit.result visit.report
        (c.workflow.graph.fanOut node.id)) :=
      htells.record hfaithful rfl _
    exact hrecord
  · obtain rfl := Workflow.id_of_node? hnode
    exact ⟨held, htells.announce _⟩

/-- An answer writes the rest of the block of the dispatched node, and perhaps the
end of the run. -/
theorem told_take {held : Bool} {node : Node} {reply : Reply} {r : Run}
    (hnode : c.workflow.node? node.id = some node) (henabled : node.disabled = false)
    (hnames : ∀ e, reply = .error e → e.nodeId = node.id)
    (htells : Tells c.workflow
      (heldEvents held node.id ++ [.nodeStarted node.id node.typeTag]) r) :
    Told c.workflow (r.take c node reply) := by
  let visit : VisitRecord := ⟨node, held, some reply⟩
  have hfaithful : visit.Faithful c.workflow := ⟨hnode, by simp [visit, henabled]⟩
  have hblock : heldEvents held node.id ++ [.nodeStarted node.id node.typeTag] ++ [visit.report] =
      visit.events := by
    rw [List.append_assoc]
    rfl
  rcases take_cases (c := c) r node reply with
    ⟨d, rfl, htake⟩ | ⟨e, rfl, _, htake⟩ | ⟨e, rfl, _, htake⟩ <;> rw [htake]
  · have hpayload : Tells c.workflow
        (heldEvents held node.id ++ [.nodeStarted node.id node.typeTag])
        { r with payload := d.output } :=
      htells
    exact hpayload.record hfaithful hblock _
  · rw [hnames e rfl]
    exact htells.record hfaithful hblock _
  · rw [hnames e rfl]
    exact told_finish none (by simp) (htells.record hfaithful hblock _)

/-- Every step continues the story. -/
theorem told_step (hnames : dispatcher.NamesNode) {r r' : Run}
    (hstep : Step c dispatcher signals r r') (hahead : Ahead c.workflow r)
    (hwaits : WaitsDeclared c.workflow r) (htold : Told c.workflow r) : Told c.workflow r' := by
  cases hstep with
  | @signal s _ _ => cases s <;> exact htold
  | begin hphase =>
      simp only [Told, hphase] at htold
      rcases htold with ⟨hresults, hevents⟩
      exact ⟨[], by simp, hresults, by simp [announce, hevents]⟩
  | cancel hphase _ =>
      rcases hphase with hphase | ⟨id, hphase⟩
      · simp only [Told, hphase] at htold
        exact told_finish none (fun _ => rfl) htold
      · simp only [Told, hphase] at htold
        exact told_finish (some id) (fun _ => rfl) htold
  | @complete rest hphase _ _ =>
      simp only [Told, hphase] at htold
      exact told_finish none (r := { r with traversal := rest }) (by simp) htold
  | @hold id rest hphase _ _ _ =>
      simp only [Told, hphase] at htold
      exact htold.announce (.runPaused id)
  | @reach id rest hphase _ _ _ =>
      simp only [Told, hphase] at htold
      exact told_visit false (r := { r with traversal := rest }) (by simp) htold
  | @resume id hphase _ _ =>
      simp only [Told, hphase] at htold
      -- The pause belongs to a block only because its id has a node.
      exact told_visit true (fun _ => hwaits.held id hphase)
        (htold.announce .runResumed)
  | @answer node reply hphase hreply =>
      simp only [Told, hphase] at htold
      simp only [Ahead, hphase] at hahead
      rcases htold with ⟨held, htells⟩
      refine told_take hahead.1 hahead.2.1 ?_ htells
      rintro e rfl
      exact hnames node r.payload e hreply

/-! ## The waiting ids are declared -/

/-- A run that is not held waits for the ids in its queue only. -/
theorem waitsDeclared_of_not_held {w : Workflow} {r : Run} (hheld : ∀ id, r.phase ≠ .held id)
    (hqueue : ∀ id ∈ r.traversal.queue, (w.node? id).isSome = true) : WaitsDeclared w r :=
  ⟨hqueue, fun id hphase => absurd hphase (hheld id)⟩

/-- Keeping a result lets only declared successors wait. -/
theorem waitsDeclared_record {w : Workflow} {r : Run}
    (hqueue : ∀ id ∈ r.traversal.queue, (w.node? id).isSome = true) (result : NodeResult)
    (event : Event) {successors : List String}
    (hsuccessors : ∀ id ∈ successors, (w.node? id).isSome = true) :
    WaitsDeclared w (r.record result event successors) := by
  apply waitsDeclared_of_not_held
  · simp [record]
  · intro id hid
    rcases List.mem_append.mp hid with hid | hid
    · exact hqueue id hid
    · exact hsuccessors id hid

/-- Visiting an id lets only declared successors wait. -/
theorem waitsDeclared_visit {r : Run}
    (hqueue : ∀ id ∈ r.traversal.queue, (c.workflow.node? id).isSome = true) (id : String) :
    WaitsDeclared c.workflow (r.visit c id) := by
  rcases visit_cases (c := c) r id with
    ⟨_, hvisit⟩ | ⟨node, _, _, hvisit⟩ | ⟨node, _, _, hvisit⟩ <;> rw [hvisit]
  · exact waitsDeclared_of_not_held (by simp) hqueue
  · exact waitsDeclared_record hqueue _ _ fun _ => Workflow.isSome_node?_of_mem_fanOut
  · exact waitsDeclared_of_not_held (by simp) hqueue

/-- An answer lets only declared successors wait. -/
theorem waitsDeclared_take {r : Run}
    (hqueue : ∀ id ∈ r.traversal.queue, (c.workflow.node? id).isSome = true) (node : Node)
    (reply : Reply) : WaitsDeclared c.workflow (r.take c node reply) := by
  have hhops (output : Option Json) : ∀ id ∈ c.workflow.graph.nextHops c.defaults node output,
      (c.workflow.node? id).isSome = true := fun _ => Workflow.isSome_node?_of_mem_nextHops
  rcases take_cases (c := c) r node reply with
    ⟨d, _, htake⟩ | ⟨e, _, _, htake⟩ | ⟨e, _, _, htake⟩ <;> rw [htake]
  · exact waitsDeclared_record (r := { r with payload := d.output }) hqueue _ _ (hhops _)
  · exact waitsDeclared_record hqueue _ _ (hhops _)
  · have hrecord : WaitsDeclared c.workflow (r.record (.ofReply node (.error e))
        (.nodeFailed e.nodeId e.message e.attempts) []) :=
      waitsDeclared_record hqueue _ _ (by simp)
    exact waitsDeclared_of_not_held (by simp [finish]) hrecord.queue

/-- Every step lets only declared ids wait. -/
theorem waitsDeclared_step {r r' : Run} (hstep : Step c dispatcher signals r r')
    (hwaits : WaitsDeclared c.workflow r) : WaitsDeclared c.workflow r' := by
  cases hstep with
  | @signal s _ _ => cases s <;> exact ⟨hwaits.queue, hwaits.held⟩
  | begin _ => exact waitsDeclared_of_not_held (by simp) hwaits.queue
  | cancel _ _ => exact waitsDeclared_of_not_held (by simp [finish]) hwaits.queue
  | @complete rest _ _ hnext =>
      apply waitsDeclared_of_not_held
      · simp [finish]
      · obtain rfl := (Traversal.next_eq_none hnext).2
        simp [finish, announce]
  | @hold id rest _ _ _ hnext =>
      refine ⟨(Traversal.declared_of_next hwaits.queue hnext).2, ?_⟩
      intro other hother
      obtain rfl := Phase.held.inj hother
      exact (Traversal.declared_of_next hwaits.queue hnext).1
  | @reach id rest _ _ _ hnext =>
      exact waitsDeclared_visit (r := { r with traversal := rest })
        (Traversal.declared_of_next hwaits.queue hnext).2 id
  | @resume id _ _ _ => exact waitsDeclared_visit (r := r.announce .runResumed) hwaits.queue id
  | answer _ _ => exact waitsDeclared_take hwaits.queue _ _

/-- In every state of every run, only declared ids wait. -/
theorem Leads.waitsDeclared {starts : List String} {input : Json} {r : Run}
    (hstarts : ∀ id ∈ starts, (c.workflow.node? id).isSome = true)
    (hleads : Leads c dispatcher signals (.initial starts input) r) :
    WaitsDeclared c.workflow r :=
  hleads.induction (waitsDeclared_of_not_held (by simp [initial]) hstarts) fun _ _ =>
    waitsDeclared_step

/-- Every state of every run tells its story. -/
theorem Leads.told (hnames : dispatcher.NamesNode) {starts : List String} {input : Json} {r : Run}
    (hstarts : ∀ id ∈ starts, (c.workflow.node? id).isSome = true)
    (hleads : Leads c dispatcher signals (.initial starts input) r) : Told c.workflow r := by
  have hall : WaitsDeclared c.workflow r ∧ Told c.workflow r := by
    apply hleads.induction_visits
    · exact ⟨waitsDeclared_of_not_held (by simp [initial]) hstarts, rfl, rfl⟩
    · rintro r r' hstep _ hahead ⟨hwaits, htold⟩
      exact ⟨waitsDeclared_step hstep hwaits, told_step hnames hstep hahead hwaits htold⟩
  exact hall.2

/-! ## The events of a run that is over -/

/-- The events of a run that is over, against its outcome: the beginning, a block
for each visited node, perhaps a pause that was not left, and the end. -/
structure Account (w : Workflow) (visits : List VisitRecord) (before : Option String)
    (last : Event) (events : List Event) (out : Outcome) : Prop where
  events_eq : events = .runStarted w.name :: (visits.flatMap VisitRecord.events ++
    ((before.map Event.runPaused).toList ++ [last]))
  nodup : (visits.map fun visit => visit.node.id).Nodup
  faithful : ∀ visit ∈ visits, visit.Faithful w
  cancelled : before.isSome = true → out.status = .cancelled
  closes : last.Closes out
  ends_once : events.filter Event.isEnding = [last]
  /-- No result has replaced another one. -/
  results_eq : out.results = (visits.map VisitRecord.result).foldl NodeResult.keep []
  reports : List.Forall₂ Event.Reports (events.filter Event.isReport) out.results

/-- The event that announces an ending shows it as the outcome does. -/
theorem closes_of_outcome? {r : Run} {out : Outcome} {ending : Ending}
    (hphase : r.phase = .ended ending) (hout : r.outcome? = some out) :
    ending.event.Closes out := by
  unfold outcome? at hout
  rw [hphase] at hout
  obtain rfl := Option.some.inj hout
  cases ending <;> exact ⟨rfl, rfl⟩

/-- Blocks report their visits in order. -/
theorem filter_isReport_flatMap (visits : List VisitRecord) :
    (visits.flatMap VisitRecord.events).filter Event.isReport =
      visits.map VisitRecord.report := by
  rw [List.filter_flatMap, List.map_eq_flatMap]
  simp only [VisitRecord.filter_isReport_events]

/-- Blocks end no run. -/
theorem filter_isEnding_flatMap (visits : List VisitRecord) :
    (visits.flatMap VisitRecord.events).filter Event.isEnding = [] := by
  rw [List.filter_flatMap]
  simp [VisitRecord.filter_isEnding_events]

/-- The events of a run that is over are well formed, and they tell its outcome. -/
theorem events_account {w : Workflow} {defaults : RouterDefaults} {explicit : Option (List String)}
    {starts : List String} {input : Json} {r : Run} {out : Outcome}
    (hnames : (∃ (registry : Registry) (clock : Clock), dispatcher = registry.dispatcher clock) ∨
      dispatcher.NamesNode)
    (hstarts : w.startNodes explicit = .ok starts)
    (hleads : Leads ⟨w, defaults⟩ dispatcher AnySignal (.initial starts input) r)
    (hout : r.outcome? = some out) :
    ∃ visits before last, Account w visits before last r.events out := by
  have hnamed : dispatcher.NamesNode := by
    rcases hnames with ⟨registry, clock, rfl⟩ | hnamed
    · exact registry.dispatcher_namesNode clock
    · exact hnamed
  rcases outcome?_eq_some hout with ⟨ending, hphase, hstatus, hkept⟩
  have htold := hleads.told hnamed (Workflow.startNodes_eq_ok hstarts).2
  simp only [Told, hphase] at htold
  rcases htold with ⟨before, hbefore, visits, hfaithful, hresults, hevents⟩
  have hnodup : (visits.map fun visit => visit.node.id).Nodup := by
    have hvisited := hleads.visits.1.nodup
    rw [visited, hresults, List.map_map] at hvisited
    simpa [Function.comp_def] using hvisited
  have hreports : r.events.filter Event.isReport = visits.map VisitRecord.report := by
    rw [hevents]
    cases before <;> cases ending <;>
      simp [filter_isReport_flatMap, Event.isReport, Ending.event]
  have hends : r.events.filter Event.isEnding = [ending.event] := by
    rw [hevents]
    cases before <;> cases ending <;>
      simp [filter_isEnding_flatMap, Event.isEnding, Ending.event]
  refine ⟨visits, before, ending.event, hevents, hnodup, hfaithful, ?_, closes_of_outcome? hphase
    hout, hends, ?_, ?_⟩
  · intro hsome
    rw [hstatus, hphase, hbefore hsome]
    rfl
  · rw [hkept, hresults, NodeResult.foldl_keep_eq, List.nil_append]
    simpa [Function.comp_def] using hnodup
  · rw [hreports, hkept, hresults, List.forall₂_map_left_iff, List.forall₂_map_right_iff,
      List.forall₂_same]
    intro visit _
    exact visit.reports

/-- In the loop, a run that starts at its last node and finds no handler for it fails
without an attempt, and its events tell so. -/
theorem events_account_choiceLoop :
    let c : RunContext := ⟨.choiceLoop, {}⟩
    let e : ActivityError := ⟨"done", .unknownType "flow.noOp", 0⟩
    let r := ((initial ["done"] .null).wake c).answer c (.error e)
    let dispatcher := Registry.empty.dispatcher (.upFor 86400)
    let out : Outcome :=
      ⟨.failed, [.ofReply (.new "done" "flow.noOp") (.error e)], .null, some e.message⟩
    Workflow.choiceLoop.startNodes (some ["done"]) = .ok ["done"] ∧
      Leads c dispatcher AnySignal (.initial ["done"] .null) r ∧
      r.outcome? = some out ∧
      ∃ visits before last, Account .choiceLoop visits before last r.events out := by
  intro c e r dispatcher out
  let node : Node := .new "done" "flow.noOp"
  rcases outcome?_of_failed_start (c := c) [] Workflow.node?_done_choiceLoop rfl rfl .null e with
    ⟨hphase, hout⟩
  have hhandler : Registry.empty.handler? node.typeTag = none := by
    decide
  have hreply (payload : Json) : dispatcher node payload (.error e) := by
    refine ⟨0, ?_⟩
    rw [Registry.dispatch, hhandler]
    rfl
  have hleads : Leads c dispatcher AnySignal (.initial ["done"] .null) r :=
    .tail (.single .wake) (.answer hphase (hreply _))
  have hregistry : ∃ (registry : Registry) (clock : Clock),
      dispatcher = registry.dispatcher clock := ⟨.empty, .upFor 86400, rfl⟩
  exact ⟨Workflow.startNodes_done_choiceLoop, hleads, hout,
    events_account (.inl hregistry) Workflow.startNodes_done_choiceLoop hleads hout⟩

end Run

end FlowGraph
