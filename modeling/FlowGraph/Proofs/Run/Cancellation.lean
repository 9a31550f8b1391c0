import FlowGraph.Proofs.Run.Stopped

/-!
# Cancelled runs

A request to cancel is heeded at the next boundary, or by a run that is held at
once.  This module shows that nothing is started after it and that the run can
only end cancelled, or failed by the dispatch that was in flight.  A resumption
that arrives together with the cancellation opens a second way out of a pause;
both ways lead to the same end.

Main results:

- Theorems `wake_eq_leave` and `wake_of_closed`: waking a held run agrees with every
  way out of its pause that is open, and does nothing while none is.
- Theorem `cancelling_step`: every step of a cancelled run starts nothing.
- Theorem `cancelled_starts_nothing`: what can happen after a cancellation.
-/

namespace FlowGraph

namespace Run

variable {c : RunContext} {dispatcher : Dispatcher} {signals : Signal → Prop}

/-! ## The ways out of a pause -/

/-- A way out of a pause: its gate opens, or the run is cancelled. -/
inductive Exit where
  | opened
  | cancelled

/-- Whether a way out is open.  Both are after a resumption and a cancellation
that arrived together. -/
def Exit.Open (r : Run) : Exit → Prop
  | .opened => r.paused = false
  | .cancelled => r.cancelled = true

variable (c) in
/-- Leave the pause before an id.  A cancellation is looked for once more after the
gate has opened. -/
def leave (r : Run) (id : String) : Exit → Run
  | .cancelled => r.finish .cancelled
  | .opened =>
    if r.cancelled then r.finish .cancelled else ((r.announce .runResumed).visit c id).settle c

/-- Waking a held run agrees with every way out that is open. -/
theorem wake_eq_leave {r : Run} {id : String} (hphase : r.phase = .held id) {exit : Exit}
    (hopen : exit.Open r) : r.wake c = r.leave c id exit := by
  cases exit with
  | opened =>
      have hpaused : r.paused = false := hopen
      simp [wake, leave, hphase, hpaused]
  | cancelled =>
      have hcancelled : r.cancelled = true := hopen
      simp [wake, leave, hphase, hcancelled]

/-- A held run goes on waiting while no way out is open. -/
theorem wake_of_closed {r : Run} {id : String} (hphase : r.phase = .held id)
    (hclosed : ∀ exit : Exit, ¬ exit.Open r) : r.wake c = r := by
  have hpaused : r.paused = true := by simpa [Exit.Open] using hclosed .opened
  have hcancelled : r.cancelled = false := by simpa [Exit.Open] using hclosed .cancelled
  simp [wake, hphase, hpaused, hcancelled]

/-- Every way out of the pause of a cancelled run ends it. -/
theorem leave_of_cancelled {r : Run} (hcancelled : r.cancelled = true) (id : String)
    (exit : Exit) : r.leave c id exit = r.finish .cancelled := by
  cases exit with
  | opened => simp [leave, hcancelled]
  | cancelled => rfl

/-! ## After a cancellation -/

/-- The event neither begins a visit nor tells of a hold. -/
def Quiet (event : Event) : Prop := event.beginsVisit = false ∧ event.isHold = false

/-- The dispatch in flight at one state has failed by a later one, and its node
does not allow that. -/
def FailsInFlight (dispatcher : Dispatcher) (r r' : Run) : Prop :=
  ∃ node e, r.phase = .dispatching node ∧ node.options.continueOnFail = false ∧
    dispatcher node r.payload (.error e) ∧ r'.results = r.results ++ [.ofReply node (.error e)]

/-- A cancelled run that has not completed does not complete. -/
theorem not_completed_step {r r' : Run} (hstep : Step c dispatcher signals r r')
    (hcancelled : r.cancelled = true) (hphase : r.phase ≠ .ended .completed) :
    r'.phase ≠ .ended .completed := by
  have hset (hunset : r.cancelled = false) : False := by
    simp [hunset] at hcancelled
  cases hstep with
  | @signal s _ _ => cases s <;> exact hphase
  | begin _ => simp
  | cancel _ _ => simp [finish]
  | complete _ hunset _ => exact (hset hunset).elim
  | hold _ _ _ _ => simp
  | reach _ hunset _ _ => exact (hset hunset).elim
  | resume _ hunset _ => exact (hset hunset).elim
  | @answer node reply _ _ =>
      rcases take_cases (c := c) r node reply with
        ⟨d, _, htake⟩ | ⟨e, _, _, htake⟩ | ⟨e, _, _, htake⟩ <;> rw [htake] <;>
        simp [record, finish]

/-- What a cancelled run has come to since an earlier state. -/
structure Cancelling (dispatcher : Dispatcher) (first r : Run) : Prop where
  cancelled : r.cancelled = true
  not_completed : r.phase ≠ .ended .completed
  announces : Announces Quiet first r
  noneBegun : NoneBegun dispatcher first r

/-- Every step of a cancelled run keeps to this. -/
theorem cancelling_step {first r r' : Run} (hstep : Step c dispatcher signals r r')
    (hcancelling : Cancelling dispatcher first r) : Cancelling dispatcher first r' := by
  have hcancelled := hcancelling.cancelled
  refine ⟨cancelled_step hstep hcancelled,
    not_completed_step hstep hcancelled hcancelling.not_completed, ?_,
    noneBegun_step hstep (.inr hcancelled) hcancelling.noneBegun⟩
  have hfits := announces_step hstep
  rw [hcancelled] at hfits
  refine hcancelling.announces.trans (hfits.mono ?_)
  intro event hevent
  simpa [FitsFlags, Quiet] using hevent

/-- If a run that was not over has begun no dispatch since, then it is cancelled only
without, and failed only by, a failure of the dispatch that was in flight. -/
theorem ending_of_noneBegun {first r : Run} {starts : List String} {input : Json}
    (hfirst : Leads c dispatcher signals (.initial starts input) first)
    (hover : first.isOver = false) (hfailures : Failures c.workflow r)
    (hnone : NoneBegun dispatcher first r) :
    (r.phase = .ended .cancelled → ¬ FailsInFlight dispatcher first r) ∧
      (∀ e, r.phase = .ended (.failed e) → FailsInFlight dispatcher first r) := by
  have hahead := hfirst.visits.2
  constructor
  · rintro hphase ⟨node, e, hdispatching, hstops, _, hresults⟩
    simp only [Failures, hphase] at hfailures
    simp only [Ahead, hdispatching] at hahead
    have hfatal : Fatal c.workflow (.ofReply node (.error e)) := ⟨rfl, node, hahead.1, hstops⟩
    apply hfailures.not_mem_of_fatal hfatal
    rw [hresults]
    exact List.mem_append_right _ List.mem_cons_self
  · intro e hphase
    simp only [Failures, hphase] at hfailures
    rcases hfailures with ⟨before, last, hlast, _, hfatal, _⟩
    rcases hnone.results with hsame | ⟨node, reply, hdispatching, hreply, hresults⟩
    · -- The failure that ended the run would be among the earlier results.
      have htolerated := hfirst.failures.tolerated hover
      have hmem : last ∈ first.results := by
        rw [← hsame, hlast]
        exact List.mem_append_right _ List.mem_cons_self
      exact absurd hmem (htolerated.not_mem_of_fatal hfatal)
    · have hsplit : before ++ [last] = first.results ++ [.ofReply node reply] :=
        hlast.symm.trans hresults
      obtain rfl : last = .ofReply node reply :=
        List.singleton_inj.mp (List.append_inj' hsplit rfl).2
      simp only [Ahead, hdispatching] at hahead
      rcases hfatal with ⟨hfailed, other, hother, hstops⟩
      cases reply with
      | ok d => simp [NodeResult.ofReply] at hfailed
      | error e' =>
          obtain rfl : node = other := Option.some.inj (hahead.1.symm.trans hother)
          exact ⟨node, e', hdispatching, hstops, hreply, hresults⟩

/-- A cancelled run starts nothing more.  Whenever a cancellation finds the run
suspended, and whatever signals follow: no visit begins, the run is neither held
nor resumed, no dispatch begins, and only the one in flight may leave its result.
If the run ends, it is cancelled, or it has failed in the single case that the
dispatch in flight failed and its node does not allow that; it never completes.
Every way out of a pause that is open leads to the cancellation. -/
theorem cancelled_starts_nothing {starts : List String} {input : Json} {r r' : Run}
    (hleads : Leads c dispatcher AnySignal (.initial starts input) r) (hover : r.isOver = false)
    (hlater : Leads c dispatcher AnySignal (r.signal .cancel) r') :
    Announces Quiet r r' ∧ NoneBegun dispatcher r r' ∧
      (∀ out, r'.outcome? = some out →
        (out.status = .cancelled ∧ ¬ FailsInFlight dispatcher r r') ∨
          (out.status = .failed ∧ FailsInFlight dispatcher r r')) ∧
      ∀ id, r'.phase = .held id → ∀ exit : Exit, exit.Open r' →
        r'.leave c id exit = r'.finish .cancelled := by
  have hsuspended := (hleads.steps (by simp [initial])).2
  have hsteps := (hlater.steps hsuspended).1
  have hall : Leads c dispatcher AnySignal (.initial starts input) r' :=
    hleads.trans (.head (.signal trivial) hlater)
  have hcancelling : Cancelling dispatcher r r' := by
    clear hlater hall
    induction hsteps with
    | refl =>
        refine ⟨rfl, ?_, announces_of_events_eq rfl, (NoneBegun.refl dispatcher r).congr rfl rfl rfl⟩
        intro hphase
        have hended : r.phase = .ended .completed := hphase
        simp [isOver, hended] at hover
    | tail _ hlast ih => exact cancelling_step hlast ih
  have hending := ending_of_noneBegun hleads hover hall.failures hcancelling.noneBegun
  refine ⟨hcancelling.announces, hcancelling.noneBegun, ?_, ?_⟩
  · intro out hout
    rcases outcome?_eq_some hout with ⟨ending, hphase, hstatus, _⟩
    rw [hstatus, hphase]
    cases ending with
    | completed => exact absurd hphase hcancelling.not_completed
    | cancelled => exact .inl ⟨rfl, hending.1 hphase⟩
    | failed e => exact .inr ⟨rfl, hending.2 e hphase⟩
  · intro id _ exit _
    exact leave_of_cancelled hcancelling.cancelled id exit

/-- In the loop, a cancellation during the dispatch of the trigger, with a pause
after it, lets the trigger finish and ends the run. -/
theorem cancelled_starts_nothing_choiceLoop :
    let c : RunContext := ⟨.choiceLoop, {}⟩
    let trigger : Node := .new "start" "flow.manualTrigger"
    let r := (initial ["start"] .null).wake c
    let r' := ((r.signal .cancel).signal .pause).answer c (.ok ⟨.null, 1⟩)
    r.phase = .dispatching trigger ∧ Announces Quiet r r' ∧
      r'.outcome? = some ⟨.cancelled, [.ofReply trigger (.ok ⟨.null, 1⟩)], .null, none⟩ := by
  intro c trigger r r'
  have hwake : r = ⟨.dispatching trigger, ⟨[], ∅⟩, .null, [],
      [.runStarted c.workflow.name, .nodeStarted trigger.id trigger.typeTag], false, false⟩ :=
    wake_initial [] Workflow.node?_choiceLoop rfl .null
  have hleads : Leads c (.ofFunction fun _ _ => .ok ⟨.null, 1⟩) AnySignal (.initial ["start"] .null)
      r :=
    .single .wake
  clear_value r
  subst hwake
  have hlater : Leads c (.ofFunction fun _ _ => .ok ⟨.null, 1⟩) AnySignal (signal _ .cancel) r' :=
    .tail (.single (.signal trivial)) (.answer rfl rfl)
  have hnothing := cancelled_starts_nothing hleads rfl hlater
  refine ⟨rfl, hnothing.1, ?_⟩
  have hanswer : r' = _ := answer_of_dispatching c rfl _
  rw [hanswer, settle_of_cancelled c rfl rfl]
  rfl

end Run

end FlowGraph
