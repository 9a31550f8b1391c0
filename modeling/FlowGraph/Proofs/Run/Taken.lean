import FlowGraph.Proofs.Run.EventStream

/-!
# What becomes of the taken ids

The loop takes an id from the queue and either visits its node or is held before
it.  Visiting an id without a node would lose the id without a trace.  This
module counts the ids that a run takes and shows that none is lost: in every
state, each of them has a result, or is the one that the loop has in hand.

Main results:

- Inductive `Takes`: steps of a run, with the ids that they take from the queue.
- Theorem `accounts_step`: a taken id is in hand until it has a result, or until
  the run is cancelled while it is held.
- Theorem `handled_step`: a result belongs to a disabled node that was skipped,
  or to an enabled one that was started.
- Theorem `Takes.kept`: every run from declared starts keeps count of its ids.
- Theorem `Kept.fate`: what became of each taken id.
-/

namespace FlowGraph

/-- The id that a run is held before, if that is the last that its events tell. -/
def heldBefore? (events : List Event) : Option String :=
  match events.getLast? with
  | some (.runPaused id) => some id
  | _ => none

/-- A pause that was just announced is the last that the events tell. -/
@[simp]
theorem heldBefore?_append_paused (events : List Event) (id : String) :
    heldBefore? (events ++ [.runPaused id]) = some id := by
  simp [heldBefore?]

/-- After the beginning of a run it is not held. -/
@[simp]
theorem heldBefore?_append_started (events : List Event) (name : String) :
    heldBefore? (events ++ [.runStarted name]) = none := by
  simp [heldBefore?]

/-- After the report of a visit a run is not held. -/
theorem heldBefore?_append_report (events : List Event) {event : Event}
    (hreport : event.isReport = true) : heldBefore? (events ++ [event]) = none := by
  unfold heldBefore?
  rw [List.getLast?_append, List.getLast?_singleton, Option.some_or]
  cases event <;> first | rfl | contradiction

/-- The events of a run that is held end with the pause. -/
theorem eq_append_of_heldBefore? {events : List Event} {id : String}
    (hheld : heldBefore? events = some id) : ∃ before, events = before ++ [.runPaused id] := by
  unfold heldBefore? at hheld
  split at hheld
  · rename_i last hlast
    obtain rfl := Option.some.inj hheld
    exact List.getLast?_eq_some_iff.mp hlast
  · contradiction

namespace Run

/-! ## Counting the taken ids -/

/-- The id that the loop takes from its queue in the next step, if it takes one. -/
def takes? (r : Run) : Option String :=
  match r.phase with
  | .between => if r.cancelled then none else r.traversal.next.1
  | _ => none

section

variable (c : RunContext) (dispatcher : Dispatcher) (signals : Signal → Prop)

/-- Some steps of a run, or none, and the ids that they take from the queue, in
order. -/
inductive Takes (r : Run) : List String → Run → Prop where
  | refl : Takes r [] r
  | tail {taken : List String} {r' r'' : Run} : Takes r taken r' →
      Step c dispatcher signals r' r'' → Takes r (taken ++ r'.takes?.toList) r''

end

/-- The id that a run has taken and that has no result: that of the node being
dispatched, the one that the run is held before, or the one that it was held
before when it was cancelled. -/
def inHand (r : Run) : Option String :=
  match r.phase with
  | .dispatching node => some node.id
  | .held id => some id
  | .ended .cancelled => heldBefore? r.events.dropLast
  | _ => none

/-- The last event tells that a run is held, and before which id, or that it was
cancelled. -/
def TellsPhase (r : Run) : Prop :=
  match r.phase with
  | .between => heldBefore? r.events = none
  | .held id => heldBefore? r.events = some id
  | .ended .cancelled => r.events.getLast? = some .runCancelled
  | _ => True

/-- The taken ids are those of the results and the one in hand. -/
structure Accounts (taken : List String) (r : Run) : Prop where
  taken_eq : taken = r.visited ++ r.inHand.toList
  tells : TellsPhase r

/-- What became of a taken id: its node was skipped or started, or the run is held
before it, or it was cancelled there. -/
def Fate (w : Workflow) (r : Run) (id : String) : Prop :=
  ∃ node, w.node? id = some node ∧
    ((node.disabled = true ∧ .skipped node ∈ r.results) ∨
      (node.disabled = false ∧ .nodeStarted node.id node.typeTag ∈ r.events) ∨
      r.phase = .held id ∨
      (r.phase = .ended .cancelled ∧
        ∃ before, r.events = before ++ [.runPaused id, .runCancelled]))

variable {c : RunContext} {dispatcher : Dispatcher} {signals : Signal → Prop}

/-- Steps take some ids. -/
theorem Steps.takes {r r' : Run} (hsteps : Steps c dispatcher signals r r') :
    ∃ taken, Takes c dispatcher signals r taken r' := by
  induction hsteps with
  | refl => exact ⟨[], .refl⟩
  | tail _ hlast ih =>
      obtain ⟨taken, htakes⟩ := ih
      exact ⟨_, htakes.tail hlast⟩

/-- Away from a boundary the loop takes nothing. -/
theorem takes?_of_suspended {r : Run} (hphase : r.phase ≠ .between) : r.takes? = none := by
  unfold takes?
  split
  · contradiction
  · rfl

/-- A result that is kept is that of the id in hand. -/
theorem accounts_record {taken : List String} {r : Run} {result : NodeResult} {event : Event}
    (htaken : taken = r.visited ++ [result.nodeId]) (hreport : event.isReport = true)
    (successors : List String) : Accounts taken (r.record result event successors) := by
  refine ⟨?_, heldBefore?_append_report _ hreport⟩
  rw [htaken]
  simp [record, announce, visited, inHand]

/-- A declared id that is visited gets its result, or is in hand. -/
theorem accounts_visit {taken : List String} {r : Run} {id : String}
    (hdeclared : (c.workflow.node? id).isSome = true) (htaken : taken = r.visited ++ [id]) :
    Accounts taken (r.visit c id) := by
  rcases visit_cases (c := c) r id with
    ⟨hnone, _⟩ | ⟨node, hnode, _, hvisit⟩ | ⟨node, hnode, _, hvisit⟩
  · rw [hnone] at hdeclared
    contradiction
  · obtain rfl := Workflow.id_of_node? hnode
    rw [hvisit]
    exact accounts_record htaken rfl _
  · obtain rfl := Workflow.id_of_node? hnode
    rw [hvisit]
    exact ⟨htaken, trivial⟩

/-- The node that is answered for gets its result. -/
theorem accounts_take {taken : List String} {r : Run} {node : Node}
    (htaken : taken = r.visited ++ [node.id]) (reply : Reply) :
    Accounts taken (r.take c node reply) := by
  rcases take_cases (c := c) r node reply with
    ⟨d, _, htake⟩ | ⟨e, _, _, htake⟩ | ⟨e, _, _, htake⟩ <;> rw [htake]
  · exact accounts_record (r := { r with payload := d.output }) htaken rfl _
  · exact accounts_record htaken rfl _
  · have hrecord : Accounts taken (r.record (.ofReply node (.error e))
        (.nodeFailed e.nodeId e.message e.attempts) []) :=
      accounts_record htaken rfl _
    exact ⟨hrecord.taken_eq, trivial⟩

/-- A taken id is in hand until it has a result, or until the run is cancelled
while it is held. -/
theorem accounts_step {taken : List String} {r r' : Run}
    (hstep : Step c dispatcher signals r r') (hwaits : WaitsDeclared c.workflow r)
    (haccounts : Accounts taken r) : Accounts (taken ++ r.takes?.toList) r' := by
  obtain ⟨htaken, htells⟩ := haccounts
  cases hstep with
  | @signal s hphase _ =>
      rw [takes?_of_suspended hphase, Option.toList_none, List.append_nil]
      cases s <;> exact ⟨htaken, htells⟩
  | begin hphase =>
      refine ⟨?_, heldBefore?_append_started _ _⟩
      simp [takes?, hphase, htaken, inHand, visited, announce]
  | cancel hphase hcancelled =>
      refine ⟨?_, by simp [TellsPhase, finish, announce]⟩
      rcases hphase with hphase | ⟨id, hphase⟩ <;> simp only [TellsPhase, hphase] at htells <;>
        simp [takes?, hphase, hcancelled, htaken, inHand, visited, finish, announce, htells]
  | complete hphase hcancelled hnext =>
      refine ⟨?_, trivial⟩
      simp [takes?, hphase, hnext, htaken, inHand, visited, finish, announce]
  | hold hphase hcancelled _ hnext =>
      refine ⟨?_, heldBefore?_append_paused _ _⟩
      simp [takes?, hphase, hcancelled, hnext, htaken, inHand, visited, announce]
  | @reach id rest hphase hcancelled _ hnext =>
      apply accounts_visit (Traversal.declared_of_next hwaits.queue hnext).1
      simp [takes?, hphase, hcancelled, hnext, htaken, inHand]
      rfl
  | @resume id hphase _ _ =>
      apply accounts_visit (hwaits.held id hphase)
      simp [takes?, hphase, htaken, inHand]
      rfl
  | @answer node reply hphase _ =>
      apply accounts_take
      simp [takes?, hphase, htaken, inHand]

/-! ## Results belong to nodes that were skipped or started -/

/-- The result is that of a disabled node that was skipped, or of an enabled one
that the events start. -/
def Handles (w : Workflow) (events : List Event) (result : NodeResult) : Prop :=
  ∃ node, w.node? result.nodeId = some node ∧
    ((node.disabled = true ∧ result = .skipped node) ∨
      (node.disabled = false ∧ .nodeStarted node.id node.typeTag ∈ events))

/-- Every result is that of a node that was skipped or started, and the node being
dispatched was started. -/
structure Handled (w : Workflow) (r : Run) : Prop where
  results : ∀ result ∈ r.results, Handles w r.events result
  dispatching : ∀ node, r.phase = .dispatching node →
    .nodeStarted node.id node.typeTag ∈ r.events

/-- More events start no fewer nodes. -/
theorem Handles.mono {w : Workflow} {events events' : List Event} {result : NodeResult}
    (hhandles : Handles w events result) (hsub : events ⊆ events') :
    Handles w events' result := by
  obtain ⟨node, hnode, hskipped | ⟨henabled, hstarted⟩⟩ := hhandles
  · exact ⟨node, hnode, .inl hskipped⟩
  · exact ⟨node, hnode, .inr ⟨henabled, hsub hstarted⟩⟩

/-- A run that only announces more and dispatches nothing has handled its results. -/
theorem Handled.of_idle {w : Workflow} {r r' : Run} (hhandled : Handled w r)
    (hresults : r'.results = r.results) (hevents : r.events ⊆ r'.events)
    (hidle : ∀ node, r'.phase ≠ .dispatching node) : Handled w r' := by
  refine ⟨?_, fun node hphase => absurd hphase (hidle node)⟩
  rw [hresults]
  exact fun result hresult => (hhandled.results result hresult).mono hevents

/-- A result that was handled may be kept. -/
theorem Handled.record {w : Workflow} {r : Run} (hhandled : Handled w r) {result : NodeResult}
    (hresult : Handles w r.events result) (event : Event) (successors : List String) :
    Handled w (r.record result event successors) := by
  have hsub : r.events ⊆ r.events ++ [event] := List.subset_append_left _ _
  refine ⟨?_, by simp [Run.record]⟩
  intro other hother
  rcases List.mem_append.mp hother with hother | hother
  · exact (hhandled.results other hother).mono hsub
  · rw [List.mem_singleton.mp hother]
    exact hresult.mono hsub

/-- Visiting an id skips its node or starts it. -/
theorem Handled.visit {r : Run} (hhandled : Handled c.workflow r) (id : String) :
    Handled c.workflow (r.visit c id) := by
  rcases visit_cases (c := c) r id with
    ⟨_, hvisit⟩ | ⟨node, hnode, hdisabled, hvisit⟩ | ⟨node, hnode, _, hvisit⟩ <;> rw [hvisit]
  · exact hhandled.of_idle rfl (List.Subset.refl _) (by simp)
  · obtain rfl := Workflow.id_of_node? hnode
    exact hhandled.record ⟨node, hnode, .inl ⟨hdisabled, rfl⟩⟩ _ _
  · refine ⟨fun result hresult => ?_, ?_⟩
    · exact (hhandled.results result hresult).mono (List.subset_append_left _ _)
    · intro other hother
      obtain rfl := Phase.dispatching.inj hother
      exact List.mem_append_right _ List.mem_cons_self

/-- An answer is for the node that was started. -/
theorem Handled.take {r : Run} (hhandled : Handled c.workflow r) (hahead : Ahead c.workflow r)
    {node : Node} (hphase : r.phase = .dispatching node) (reply : Reply) :
    Handled c.workflow (r.take c node reply) := by
  simp only [Ahead, hphase] at hahead
  have hstarted := hhandled.dispatching node hphase
  rcases take_cases (c := c) r node reply with
    ⟨d, _, htake⟩ | ⟨e, _, _, htake⟩ | ⟨e, _, _, htake⟩ <;> rw [htake]
  · have hpayload : Handled c.workflow { r with payload := d.output } :=
      ⟨hhandled.results, hhandled.dispatching⟩
    exact hpayload.record ⟨node, hahead.1, .inr ⟨hahead.2.1, hstarted⟩⟩ _ _
  · exact hhandled.record ⟨node, hahead.1, .inr ⟨hahead.2.1, hstarted⟩⟩ _ _
  · have hrecord : Handled c.workflow (r.record (.ofReply node (.error e))
        (.nodeFailed e.nodeId e.message e.attempts) []) :=
      hhandled.record ⟨node, hahead.1, .inr ⟨hahead.2.1, hstarted⟩⟩ _ _
    exact hrecord.of_idle rfl (List.subset_append_left _ _) (by simp [finish])

/-- A result belongs to a disabled node that was skipped, or to an enabled one
that was started. -/
theorem handled_step {r r' : Run} (hstep : Step c dispatcher signals r r')
    (hahead : Ahead c.workflow r) (hhandled : Handled c.workflow r) : Handled c.workflow r' := by
  have hmore (event : Event) : r.events ⊆ r.events ++ [event] := List.subset_append_left _ _
  cases hstep with
  | @signal s _ _ => cases s <;> exact ⟨hhandled.results, hhandled.dispatching⟩
  | begin _ => exact hhandled.of_idle rfl (hmore _) (by simp)
  | cancel _ _ => exact hhandled.of_idle rfl (hmore _) (by simp [finish])
  | complete _ _ _ => exact hhandled.of_idle rfl (hmore _) (by simp [finish])
  | hold _ _ _ _ => exact hhandled.of_idle rfl (hmore _) (by simp)
  | @reach id rest _ _ _ _ =>
      have htaken : Handled c.workflow { r with traversal := rest } :=
        ⟨hhandled.results, hhandled.dispatching⟩
      exact htaken.visit id
  | @resume id hphase _ _ =>
      have hresumed : Handled c.workflow (r.announce .runResumed) :=
        hhandled.of_idle rfl (hmore _) (by simp [announce, hphase])
      exact hresumed.visit id
  | answer hphase _ => exact hhandled.take hahead hphase _

/-! ## The taken ids of a run -/

/-- The id that a step takes is declared if those that wait are. -/
theorem isSome_node?_of_takes? {w : Workflow} {r : Run} (hwaits : WaitsDeclared w r) {id : String}
    (htakes : r.takes? = some id) : (w.node? id).isSome = true := by
  unfold takes? at htakes
  split at htakes
  · split at htakes
    · contradiction
    · rcases hnext : r.traversal.next with ⟨_ | other, rest⟩ <;> rw [hnext] at htakes
      · contradiction
      · obtain rfl := Option.some.inj htakes
        exact (Traversal.declared_of_next hwaits.queue hnext).1
  · contradiction

/-- What holds of a run from declared starts and of the ids that it has taken. -/
structure Kept (w : Workflow) (taken : List String) (r : Run) : Prop where
  visits : Visits w r
  ahead : Ahead w r
  waits : WaitsDeclared w r
  declared : ∀ id ∈ taken, (w.node? id).isSome = true
  accounts : Accounts taken r
  handled : Handled w r

/-- Every step keeps what holds of a run and of the ids it has taken. -/
theorem kept_step {taken : List String} {r r' : Run} (hstep : Step c dispatcher signals r r')
    (hkept : Kept c.workflow taken r) : Kept c.workflow (taken ++ r.takes?.toList) r' := by
  obtain ⟨hvisits, hahead⟩ := visits_step hstep hkept.visits hkept.ahead
  refine ⟨hvisits, hahead, waitsDeclared_step hstep hkept.waits, ?_,
    accounts_step hstep hkept.waits hkept.accounts, handled_step hstep hkept.ahead hkept.handled⟩
  intro id hid
  rcases List.mem_append.mp hid with hid | hid
  · exact hkept.declared id hid
  · exact isSome_node?_of_takes? hkept.waits (Option.mem_toList.mp hid)

/-- Every run from declared starts keeps count of the ids that it takes. -/
theorem Takes.kept {starts taken : List String} {input : Json} {r : Run}
    (hstarts : ∀ id ∈ starts, (c.workflow.node? id).isSome = true)
    (htakes : Takes c dispatcher signals (.initial starts input) taken r) :
    Kept c.workflow taken r := by
  induction htakes with
  | refl =>
      obtain ⟨hvisits, hahead⟩ := visits_initial c.workflow starts input
      exact ⟨hvisits, hahead, waitsDeclared_of_not_held (by simp [initial]) hstarts,
        by simp, ⟨rfl, trivial⟩, ⟨by simp [initial], by simp [initial]⟩⟩
  | tail _ hlast ih => exact kept_step hlast ih

/-- What became of a declared id that is in hand: its node was started, or the run is
held before it, or it was cancelled there. -/
theorem Kept.fate_inHand {w : Workflow} {taken : List String} {r : Run} (hkept : Kept w taken r)
    {id : String} {node : Node} (hnode : w.node? id = some node) (hhand : r.inHand = some id) :
    Fate w r id := by
  have hahead := hkept.ahead
  have htells := hkept.accounts.tells
  unfold inHand at hhand
  unfold Ahead at hahead
  unfold TellsPhase at htells
  split at hhand
  · rename_i dispatched hphase
    simp only [hphase] at hahead
    obtain rfl := Option.some.inj hhand
    exact ⟨dispatched, hahead.1,
      .inr (.inl ⟨hahead.2.1, hkept.handled.dispatching dispatched hphase⟩)⟩
  · rename_i hphase
    obtain rfl := Option.some.inj hhand
    exact ⟨node, hnode, .inr (.inr (.inl hphase))⟩
  · rename_i hphase
    simp only [hphase] at htells
    obtain ⟨before, hbefore⟩ := eq_append_of_heldBefore? hhand
    obtain ⟨init, hinit⟩ := List.getLast?_eq_some_iff.mp htells
    refine ⟨node, hnode, .inr (.inr (.inr ⟨hphase, before, ?_⟩))⟩
    rw [hinit, List.dropLast_concat] at hbefore
    rw [hinit, hbefore, List.append_assoc]
    rfl
  · contradiction

/-- What became of every taken id. -/
theorem Kept.fate {w : Workflow} {taken : List String} {r : Run} (hkept : Kept w taken r)
    {id : String} (hid : id ∈ taken) : Fate w r id := by
  obtain ⟨node, hnode⟩ := Option.isSome_iff_exists.mp (hkept.declared id hid)
  rw [hkept.accounts.taken_eq, List.mem_append, Option.mem_toList] at hid
  rcases hid with hvisited | hhand
  · obtain ⟨result, hresult, rfl⟩ := List.mem_map.mp hvisited
    obtain ⟨other, hother, hskipped | hstarted⟩ := hkept.handled.results result hresult
    · exact ⟨other, hother, .inl ⟨hskipped.1, hskipped.2 ▸ hresult⟩⟩
    · exact ⟨other, hother, .inr (.inl hstarted)⟩
  · exact hkept.fate_inHand hnode hhand

end Run

end FlowGraph
