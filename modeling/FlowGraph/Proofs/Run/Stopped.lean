import FlowGraph.Proofs.Run.Failures
import FlowGraph.Proofs.Run.Results

/-!
# Stopped runs

A request to pause or to cancel sets a flag, and the loop reads the flags at the
next boundary only.  This module shows that this is enough: a step announces a
visit only while neither flag is set, and a step of a run with a flag set begins
no dispatch, so that only the one in flight may still leave its result.

Main results:

- Theorem `announces_step`: which events a step announces under which flags.
- Theorem `noneBegun_step`: a step of a run with a flag set begins no dispatch.
- Theorem `flags_step`: only signals change the flags.
-/

namespace FlowGraph

namespace Event

/-- The event begins the visit of a node: the node is started, or passed over. -/
def beginsVisit : Event → Bool
  | .nodeStarted _ _ => true
  | .nodeSkipped _ => true
  | _ => false

/-- The event tells that the run is held before a node, or goes on. -/
def isHold : Event → Bool
  | .runPaused _ => true
  | .runResumed => true
  | _ => false

/-- The event tells how a dispatch ended, or that this failed the run. -/
def tellsAnswer : Event → Bool
  | .nodeCompleted _ _ _ => true
  | .nodeFailed _ _ _ => true
  | .runFailed _ => true
  | _ => false

end Event

namespace Run

/-! ## What a run announces -/

/-- From one state to a later one, only events of an allowed kind were
announced. -/
def Announces (allowed : Event → Prop) (r r' : Run) : Prop :=
  ∃ more, r'.events = r.events ++ more ∧ ∀ event ∈ more, allowed event

/-- A state announces nothing since itself. -/
theorem announces_of_events_eq {allowed : Event → Prop} {r r' : Run}
    (hevents : r'.events = r.events) : Announces allowed r r' :=
  ⟨[], by rw [hevents, List.append_nil], by simp⟩

/-- One event of an allowed kind may be announced. -/
theorem announces_announce {allowed : Event → Prop} (r : Run) {event : Event}
    (hevent : allowed event) : Announces allowed r (r.announce event) := by
  refine ⟨[event], rfl, ?_⟩
  intro other hother
  rw [List.mem_singleton] at hother
  exact hother ▸ hevent

/-- Announcements add up. -/
theorem Announces.trans {allowed : Event → Prop} {r₁ r₂ r₃ : Run}
    (hfirst : Announces allowed r₁ r₂) (hsecond : Announces allowed r₂ r₃) :
    Announces allowed r₁ r₃ := by
  rcases hfirst with ⟨more, hmore, hallowed⟩
  rcases hsecond with ⟨rest, hrest, hallowed'⟩
  refine ⟨more ++ rest, by rw [hrest, hmore, List.append_assoc], ?_⟩
  intro event hevent
  rcases List.mem_append.mp hevent with hevent | hevent
  · exact hallowed event hevent
  · exact hallowed' event hevent

/-- What is allowed may be extended. -/
theorem Announces.mono {allowed allowed' : Event → Prop} {r r' : Run}
    (hannounces : Announces allowed r r') (hsub : ∀ event, allowed event → allowed' event) :
    Announces allowed' r r' := by
  rcases hannounces with ⟨more, hmore, hallowed⟩
  exact ⟨more, hmore, fun event hevent => hsub event (hallowed event hevent)⟩

/-- An event fits the flags: a visit begins only when neither is set, and the run
is held or goes on only when it is not cancelled. -/
def FitsFlags (paused cancelled : Bool) (event : Event) : Prop :=
  (event.beginsVisit = true → paused = false ∧ cancelled = false) ∧
    (event.isHold = true → cancelled = false)

/-- While no flag is set, every event fits. -/
theorem fitsFlags_of_unset {paused cancelled : Bool} (hpaused : paused = false)
    (hcancelled : cancelled = false) (event : Event) : FitsFlags paused cancelled event :=
  ⟨fun _ => ⟨hpaused, hcancelled⟩, fun _ => hcancelled⟩

/-- An answer may be announced under any flags. -/
theorem fitsFlags_of_tellsAnswer (paused cancelled : Bool) {event : Event}
    (hanswer : event.tellsAnswer = true) : FitsFlags paused cancelled event := by
  cases event <;> simp_all [FitsFlags, Event.tellsAnswer, Event.beginsVisit, Event.isHold]

variable {c : RunContext} {dispatcher : Dispatcher} {signals : Signal → Prop}

/-- Visiting an id announces the beginning of a visit, or nothing. -/
theorem announces_visit {allowed : Event → Prop}
    (hallowed : ∀ event, event.beginsVisit = true → allowed event) (r : Run) (id : String) :
    Announces allowed r (r.visit c id) := by
  rcases visit_cases (c := c) r id with
    ⟨_, hvisit⟩ | ⟨node, _, _, hvisit⟩ | ⟨node, _, _, hvisit⟩ <;> rw [hvisit]
  · exact announces_of_events_eq rfl
  · exact announces_announce r (hallowed _ rfl)
  · exact announces_announce r (hallowed _ rfl)

/-- An answer announces how the dispatch ended, and perhaps that the run failed. -/
theorem announces_take {allowed : Event → Prop}
    (hallowed : ∀ event, event.tellsAnswer = true → allowed event) (r : Run) (node : Node)
    (reply : Reply) : Announces allowed r (r.take c node reply) := by
  rcases take_cases (c := c) r node reply with
    ⟨d, _, htake⟩ | ⟨e, _, _, htake⟩ | ⟨e, _, _, htake⟩ <;> rw [htake]
  · exact announces_announce r (hallowed _ rfl)
  · exact announces_announce r (hallowed _ rfl)
  · have hfailed : Announces allowed r
        (r.announce (.nodeFailed e.nodeId e.message e.attempts)) :=
      announces_announce r (hallowed _ rfl)
    exact hfailed.trans (announces_announce _ (hallowed (.runFailed e.message) rfl))

/-- Every step announces events that fit the flags. -/
theorem announces_step {r r' : Run} (hstep : Step c dispatcher signals r r') :
    Announces (FitsFlags r.paused r.cancelled) r r' := by
  cases hstep with
  | @signal s _ _ => cases s <;> exact announces_of_events_eq rfl
  | begin _ => exact announces_announce r (by simp [FitsFlags, Event.beginsVisit, Event.isHold])
  | cancel _ _ => exact announces_announce r (by simp [FitsFlags, Event.beginsVisit, Event.isHold])
  | complete _ _ _ =>
      exact announces_announce r (by simp [FitsFlags, Event.beginsVisit, Event.isHold])
  | hold _ hcancelled _ _ =>
      exact announces_announce r (by simp [FitsFlags, Event.beginsVisit, hcancelled])
  | @reach id rest _ hcancelled hpaused _ =>
      have hvisit : Announces (FitsFlags r.paused r.cancelled) { r with traversal := rest }
          ({ r with traversal := rest }.visit c id) :=
        announces_visit (fun event _ => fitsFlags_of_unset hpaused hcancelled event) _ id
      exact hvisit
  | @resume id _ hcancelled hpaused =>
      have hresumed : Announces (FitsFlags r.paused r.cancelled) r (r.announce .runResumed) :=
        announces_announce r (fitsFlags_of_unset hpaused hcancelled _)
      exact hresumed.trans
        (announces_visit (fun event _ => fitsFlags_of_unset hpaused hcancelled event) _ id)
  | @answer node reply _ _ =>
      exact announces_take (fun event => fitsFlags_of_tellsAnswer r.paused r.cancelled) r node
        reply

/-! ## What is in flight -/

/-- From one state to a later one, no dispatch was begun: one that is in flight
was so already, and only its result may have been added. -/
structure NoneBegun (dispatcher : Dispatcher) (r r' : Run) : Prop where
  inFlight : ∀ node, r'.phase = .dispatching node →
    r.phase = .dispatching node ∧ r'.payload = r.payload ∧ r'.results = r.results
  results : r'.results = r.results ∨ ∃ node reply, r.phase = .dispatching node ∧
    dispatcher node r.payload reply ∧ r'.results = r.results ++ [.ofReply node reply]

/-- Between a state and itself, no dispatch was begun. -/
theorem NoneBegun.refl (dispatcher : Dispatcher) (r : Run) : NoneBegun dispatcher r r :=
  ⟨fun _ hphase => ⟨hphase, rfl, rfl⟩, .inl rfl⟩

/-- A later state with the same results and without a dispatch begins none. -/
theorem NoneBegun.idle {first r r' : Run} (hnone : NoneBegun dispatcher first r)
    (hresults : r'.results = r.results) (hidle : ∀ node, r'.phase ≠ .dispatching node) :
    NoneBegun dispatcher first r' := by
  constructor
  · intro node hphase
    exact absurd hphase (hidle node)
  · rw [hresults]
    exact hnone.results

/-- Only what a signal leaves alone matters. -/
theorem NoneBegun.congr {first r r' : Run} (hnone : NoneBegun dispatcher first r)
    (hphase : r'.phase = r.phase) (hpayload : r'.payload = r.payload)
    (hresults : r'.results = r.results) : NoneBegun dispatcher first r' := by
  constructor
  · rw [hphase, hpayload, hresults]
    exact hnone.inFlight
  · rw [hresults]
    exact hnone.results

/-- An answer leaves no dispatch in flight. -/
theorem idle_take (r : Run) (node other : Node) (reply : Reply) :
    (r.take c node reply).phase ≠ .dispatching other := by
  rcases take_cases (c := c) r node reply with
    ⟨d, _, htake⟩ | ⟨e, _, _, htake⟩ | ⟨e, _, _, htake⟩ <;> rw [htake] <;> simp [record, finish]

/-- A step of a run with a flag set begins no dispatch. -/
theorem noneBegun_step {first r r' : Run} (hstep : Step c dispatcher signals r r')
    (hstopped : r.paused = true ∨ r.cancelled = true) (hnone : NoneBegun dispatcher first r) :
    NoneBegun dispatcher first r' := by
  have hset (hpaused : r.paused = false) (hcancelled : r.cancelled = false) : False := by
    simp [hpaused, hcancelled] at hstopped
  cases hstep with
  | @signal s _ _ => cases s <;> exact hnone.congr rfl rfl rfl
  | begin _ => exact hnone.idle rfl (by simp)
  | cancel _ _ => exact hnone.idle rfl (by simp [finish])
  | complete _ _ _ => exact hnone.idle rfl (by simp [finish])
  | hold _ _ _ _ => exact hnone.idle rfl (by simp)
  | reach _ hcancelled hpaused _ => exact (hset hpaused hcancelled).elim
  | resume _ hcancelled hpaused => exact (hset hpaused hcancelled).elim
  | @answer node reply hphase hreply =>
      rcases hnone.inFlight node hphase with ⟨hfirst, hpayload, hresults⟩
      constructor
      · intro other hother
        exact absurd hother (idle_take r node other reply)
      · refine .inr ⟨node, reply, hfirst, hpayload ▸ hreply, ?_⟩
        rw [results_take, hresults]

/-! ## The flags -/

/-- Visiting an id and taking an answer leave the flags alone. -/
theorem flags_visit (r : Run) (id : String) :
    (r.visit c id).paused = r.paused ∧ (r.visit c id).cancelled = r.cancelled := by
  rcases visit_cases (c := c) r id with
    ⟨_, hvisit⟩ | ⟨node, _, _, hvisit⟩ | ⟨node, _, _, hvisit⟩ <;> rw [hvisit] <;> exact ⟨rfl, rfl⟩

/-- Taking an answer leaves the flags alone. -/
theorem flags_take (r : Run) (node : Node) (reply : Reply) :
    (r.take c node reply).paused = r.paused ∧ (r.take c node reply).cancelled = r.cancelled := by
  rcases take_cases (c := c) r node reply with
    ⟨d, _, htake⟩ | ⟨e, _, _, htake⟩ | ⟨e, _, _, htake⟩ <;> rw [htake] <;> exact ⟨rfl, rfl⟩

/-- Only signals change the flags. -/
theorem flags_step {r r' : Run} (hstep : Step c dispatcher signals r r') :
    (r'.paused = r.paused ∧ r'.cancelled = r.cancelled) ∨ ∃ s, signals s ∧ r' = r.signal s := by
  cases hstep with
  | @signal s _ hsignal => exact .inr ⟨s, hsignal, rfl⟩
  | begin _ => exact .inl ⟨rfl, rfl⟩
  | cancel _ _ => exact .inl ⟨rfl, rfl⟩
  | complete _ _ _ => exact .inl ⟨rfl, rfl⟩
  | hold _ _ _ _ => exact .inl ⟨rfl, rfl⟩
  | @reach id rest _ _ _ _ => exact .inl (flags_visit { r with traversal := rest } id)
  | @resume id _ _ _ => exact .inl (flags_visit (r.announce .runResumed) id)
  | @answer node reply _ _ => exact .inl (flags_take r node reply)

/-- A request to cancel is never withdrawn. -/
theorem cancelled_step {r r' : Run} (hstep : Step c dispatcher signals r r')
    (hcancelled : r.cancelled = true) : r'.cancelled = true := by
  rcases flags_step hstep with ⟨_, hflag⟩ | ⟨s, _, rfl⟩
  · exact hflag.trans hcancelled
  · cases s with
    | pause => exact hcancelled
    | resume => exact hcancelled
    | cancel => rfl

/-- A request to pause holds until a resumption. -/
theorem paused_step (hsignals : ¬ signals .resume) {r r' : Run}
    (hstep : Step c dispatcher signals r r') (hpaused : r.paused = true) : r'.paused = true := by
  rcases flags_step hstep with ⟨hflag, _⟩ | ⟨s, hsignal, rfl⟩
  · exact hflag.trans hpaused
  · cases s with
    | pause => rfl
    | resume => exact absurd hsignal hsignals
    | cancel => exact hpaused

end Run

end FlowGraph
