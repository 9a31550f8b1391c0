import FlowGraph.Proofs.Run.EventStream
import FlowGraph.Proofs.Run.Failures

/-!
# The life of a run

A run shows a status, the node it is at, its payload and its results.  This module shows
what such a snapshot tells: nothing was touched before the run began, a running one has one
dispatch in flight, a waiting one is held before a node by a pause that the loop has seen,
and one that is over never changes again.

Main results:

- Theorem `status_step`: the status moves along the arrows of `StatusMove` only.
- Theorem `heldByPause_wake`: a run that goes on waiting is paused and not cancelled.
- Theorem `leads_of_over`: only the flags of a run that is over still change.
- Theorem `snapshot_invariant`: what every snapshot of every run tells.
-/

namespace FlowGraph

/-- The ways in which the status of a run moves. -/
inductive StatusMove : RunStatus → RunStatus → Prop where
  | begin : StatusMove .pending .running
  | hold : StatusMove .running .waiting
  | resume : StatusMove .waiting .running
  | finish {status : RunStatus} : status.isTerminal = true → StatusMove .running status
  | cancel : StatusMove .waiting .cancelled

namespace Run

variable {c : RunContext} {dispatcher : Dispatcher} {signals : Signal → Prop}

/-! ## How the status moves -/

/-- From one state to the next, the status stays or moves in one of its ways. -/
def StatusKeptOrMoved (r r' : Run) : Prop :=
  r'.snapshot.status = r.snapshot.status ∨ StatusMove r.snapshot.status r'.snapshot.status

/-- A run is running when it has visited an id. -/
theorem status_visit (r : Run) (id : String) : (r.visit c id).snapshot.status = .running := by
  rcases visit_cases (c := c) r id with
    ⟨_, hvisit⟩ | ⟨node, _, _, hvisit⟩ | ⟨node, _, _, hvisit⟩ <;> rw [hvisit] <;> rfl

/-- An answer leaves a run running, or fails it. -/
theorem status_take (r : Run) (node : Node) (reply : Reply) :
    (r.take c node reply).snapshot.status = .running ∨
      (r.take c node reply).snapshot.status = .failed := by
  rcases take_cases (c := c) r node reply with
    ⟨d, _, htake⟩ | ⟨e, _, _, htake⟩ | ⟨e, _, _, htake⟩ <;> rw [htake]
  · exact .inl rfl
  · exact .inl rfl
  · exact .inr rfl

/-- Every step keeps the status or moves it in one of its ways. -/
theorem status_step {r r' : Run} (hstep : Step c dispatcher signals r r') :
    StatusKeptOrMoved r r' := by
  have hstatus {phase : Phase} (hphase : r.phase = phase) : r.snapshot.status = phase.status :=
    congrArg Phase.status hphase
  unfold StatusKeptOrMoved
  cases hstep with
  | @signal s _ _ => exact .inl (congrArg Snapshot.status (signal_snapshot r s))
  | begin hphase =>
      rw [hstatus hphase]
      exact .inr .begin
  | cancel hphase _ =>
      rcases hphase with hphase | ⟨id, hphase⟩ <;> rw [hstatus hphase]
      · exact .inr (.finish rfl)
      · exact .inr .cancel
  | complete hphase _ _ =>
      rw [hstatus hphase]
      exact .inr (.finish rfl)
  | hold hphase _ _ _ =>
      rw [hstatus hphase]
      exact .inr .hold
  | @reach id rest hphase _ _ _ =>
      rw [hstatus hphase, status_visit]
      exact .inl rfl
  | @resume id hphase _ _ =>
      rw [hstatus hphase, status_visit]
      exact .inr .resume
  | @answer node reply hphase _ =>
      rw [hstatus hphase]
      rcases status_take (c := c) r node reply with hrunning | hfailed
      · rw [hrunning]
        exact .inl rfl
      · rw [hfailed]
        exact .inr (.finish rfl)

/-! ## A run that goes on waiting -/

/-- If the run is held, then by a pause that nothing has ended. -/
def HeldByPause (r : Run) : Prop :=
  ∀ id, r.phase = .held id → r.paused = true ∧ r.cancelled = false

/-- A run that is not held is not held for a wrong reason. -/
theorem heldByPause_of_not_held {r : Run} (hnot : r.snapshot.status ≠ .waiting) :
    HeldByPause r := by
  intro id hphase
  exact absurd (congrArg Phase.status hphase) hnot

/-- A turn holds only a paused run. -/
theorem heldByPause_turn (r : Run) : HeldByPause (r.turn c) := by
  rcases turn_cases (c := c) r with ⟨_, hturn⟩ | ⟨_, rest, _, hturn⟩ |
    ⟨hcancelled, hpaused, id, rest, _, hturn⟩ | ⟨_, _, id, rest, _, hturn⟩ <;> rw [hturn]
  · exact heldByPause_of_not_held (by simp [snapshot, finish, Phase.status])
  · exact heldByPause_of_not_held (by simp [snapshot, finish, Phase.status])
  · exact fun _ _ => ⟨hpaused, hcancelled⟩
  · exact heldByPause_of_not_held (by simp [status_visit])

/-- The loop goes on to hold only a paused run. -/
theorem heldByPause_settle {r : Run} (hheld : HeldByPause r) : HeldByPause (r.settle c) := by
  unfold settle
  generalize r.traversal.queue.length + c.workflow.connections.length + 1 = fuel
  induction fuel generalizing r with
  | zero => exact hheld
  | succ fuel ih =>
      by_cases hphase : r.phase = .between
      · rw [turns_succ c fuel hphase]
        exact ih (heldByPause_turn r)
      · rwa [turns_of_suspended c _ hphase]

/-- A run that is held when it was woken is paused and not cancelled. -/
theorem heldByPause_wake (r : Run) : HeldByPause (r.wake c) := by
  unfold wake
  split
  · exact heldByPause_settle (heldByPause_of_not_held (by simp [snapshot, Phase.status]))
  · split
    · exact heldByPause_of_not_held (by simp [snapshot, finish, Phase.status])
    · rename_i hcancelled
      split
      · rename_i hpaused
        exact fun _ _ => ⟨hpaused, by simpa using hcancelled⟩
      · exact heldByPause_settle (heldByPause_of_not_held (by simp [status_visit]))
  · rename_i hnot
    exact fun id hphase => absurd hphase (hnot id)

/-- A suspended run that has begun and is held by a pause only has nothing to act on. -/
theorem wake_of_heldByPause {r : Run} (hsuspended : r.phase ≠ .between)
    (hbegun : r.phase ≠ .pending) (hheld : HeldByPause r) : r.wake c = r := by
  cases hphase : r.phase with
  | pending => contradiction
  | between => contradiction
  | dispatching node => simp only [wake, hphase]
  | held id =>
      rcases hheld id hphase with ⟨hpaused, hcancelled⟩
      simp [wake, hphase, hpaused, hcancelled]
  | ended ending => simp only [wake, hphase]

/-- The loop acts on all signals at once: woken again, it stays where it is. -/
theorem wake_wake {r : Run} (hsuspended : r.phase ≠ .between) :
    (r.wake c).wake c = r.wake c := by
  have hwake := @steps_wake c (fun _ _ _ => False) NoSignal r hsuspended
  have hbegun : (r.wake c).phase ≠ .pending := by
    by_cases hpending : r.phase = .pending
    · simp only [wake, hpending]
      exact begun_steps (steps_settle c (fun _ _ _ => False) NoSignal _) (by simp)
    · exact begun_steps hwake.1 hpending
  exact wake_of_heldByPause hwake.2 hbegun (heldByPause_wake r)

/-! ## A run that is over -/

/-- A terminal status is that of a run that is over. -/
theorem isOver_of_isTerminal {r : Run} (hterminal : r.snapshot.status.isTerminal = true) :
    r.isOver = true := by
  unfold snapshot at hterminal
  unfold isOver
  cases hphase : r.phase <;> simp_all [Phase.status, RunStatus.isTerminal]

/-- Only the flags of a run that is over still change. -/
theorem leads_of_over {r r' : Run} (hover : r.isOver = true)
    (hleads : Leads c dispatcher signals r r') :
    ∃ paused cancelled, r' = { r with paused := paused, cancelled := cancelled } := by
  unfold isOver at hover
  split at hover
  · rename_i ending hphase
    induction hleads with
    | refl => exact ⟨r.paused, r.cancelled, rfl⟩
    | tail _ hmove ih =>
        rcases ih with ⟨paused, cancelled, rfl⟩
        cases hmove with
        | @signal s _ => cases s <;> exact ⟨_, _, rfl⟩
        | wake => exact ⟨paused, cancelled, by simp only [wake, hphase]⟩
        | answer hdispatching _ => simp [hphase] at hdispatching
  · contradiction

/-! ## What a snapshot tells -/

/-- What the status of a suspended run tells about it, for each status that it may show:
which node it is at, what has been recorded, and which dispatch is in flight. -/
def Shows (w : Workflow) (r : Run) : Prop :=
  match r.snapshot.status with
  | .pending => r.snapshot.current = none ∧ r.snapshot.results = [] ∧ r.events = []
  | .running =>
      ∃ node, r.phase = .dispatching node ∧ r.snapshot.current = some node.id ∧
        w.node? node.id = some node ∧ node.id ∉ r.snapshot.results.map NodeResult.nodeId ∧
        startedIds r.events = dispatchedIds r.results ++ [node.id]
  | .waiting =>
      ∃ id, r.phase = .held id ∧ r.snapshot.current = some id ∧
        (w.node? id).isSome = true ∧ id ∉ r.snapshot.results.map NodeResult.nodeId ∧
        startedIds r.events = dispatchedIds r.results
  | _ =>
      r.isOver = true ∧ r.snapshot.current = none ∧ startedIds r.events = dispatchedIds r.results

/-- Every state of every run shows what its status tells. -/
theorem Leads.shows {starts : List String} {input : Json} {r : Run}
    (hstarts : ∀ id ∈ starts, (c.workflow.node? id).isSome = true)
    (hleads : Leads c dispatcher signals (.initial starts input) r) : Shows c.workflow r := by
  have hsuspended := (hleads.steps (by simp [initial])).2
  have hahead := hleads.visits.2
  have hwaits := hleads.waitsDeclared hstarts
  have hdispatches := hleads.dispatches
  unfold Dispatches at hdispatches
  cases hphase : r.phase with
  | pending =>
      rcases hleads.eq_initial_of_pending hphase with ⟨_, _, rfl⟩
      exact ⟨rfl, rfl, rfl⟩
  | between => contradiction
  | dispatching node =>
      simp only [Ahead, hphase] at hahead
      simp only [inFlight, hphase] at hdispatches
      simp only [Shows, snapshot, hphase]
      exact ⟨node, rfl, rfl, hahead.1, hahead.2.2, hdispatches⟩
  | held id =>
      simp only [Ahead, hphase] at hahead
      simp only [inFlight, hphase, List.append_nil] at hdispatches
      simp only [Shows, snapshot, hphase]
      exact ⟨id, rfl, rfl, hwaits.held id hphase, hahead, hdispatches⟩
  | ended ending =>
      simp only [inFlight, hphase, List.append_nil] at hdispatches
      have hover : r.isOver = true := by
        simp only [isOver, hphase]
      cases ending <;> simp only [Shows, snapshot, hphase] <;> exact ⟨hover, rfl, hdispatches⟩

/-- Wherever a run is suspended or over, and whatever signals have arrived, its snapshot
tells what its status says.  A waiting run for which the loop has acted on all signals, so
that waking it changes nothing, is paused and not cancelled; and waking acts on all signals.
A run with a terminal status is over and nothing of it changes any more.  The status moves
from pending to running, from running to waiting and back, from running to any terminal
status, and from waiting to cancelled. -/
theorem snapshot_invariant {w : Workflow} {defaults : RouterDefaults}
    {explicit : Option (List String)} {starts : List String} {input : Json} {r : Run}
    (hstarts : w.startNodes explicit = .ok starts)
    (hleads : Leads ⟨w, defaults⟩ dispatcher AnySignal (.initial starts input) r) :
    Shows w r ∧
      (r.snapshot.status = .waiting → r.wake ⟨w, defaults⟩ = r →
        r.paused = true ∧ r.cancelled = false) ∧
      (r.wake ⟨w, defaults⟩).wake ⟨w, defaults⟩ = r.wake ⟨w, defaults⟩ ∧
      (r.snapshot.status.isTerminal = true →
        ∀ r', Leads ⟨w, defaults⟩ dispatcher AnySignal r r' →
          r'.snapshot = r.snapshot ∧ r'.events = r.events ∧ r'.outcome? = r.outcome?) ∧
      ∀ r', Leads ⟨w, defaults⟩ dispatcher AnySignal r r' →
        Relation.ReflTransGen (fun before after =>
          Step ⟨w, defaults⟩ dispatcher AnySignal before after ∧
            StatusKeptOrMoved before after) r r' := by
  have hsuspended := (hleads.steps (by simp [initial])).2
  have hshows : Shows w r := hleads.shows (Workflow.startNodes_eq_ok hstarts).2
  refine ⟨hshows, ?_, wake_wake hsuspended, ?_, ?_⟩
  · intro hwaiting hwake
    have hheld : HeldByPause r := hwake ▸ heldByPause_wake r
    simp only [Shows, hwaiting] at hshows
    rcases hshows with ⟨id, hphase, _⟩
    exact hheld id hphase
  · intro hterminal r' hlater
    rcases leads_of_over (isOver_of_isTerminal hterminal) hlater with ⟨_, _, rfl⟩
    exact ⟨rfl, rfl, rfl⟩
  · intro r' hlater
    refine Relation.ReflTransGen.mono ?_ r r' (hlater.steps hsuspended).1
    exact fun before after hstep => ⟨hstep, status_step hstep⟩

/-- In the loop, a pause during the dispatch of the trigger holds the run before the choice,
which is there and has no result yet; woken, the run goes on waiting.  A cancellation then
ends it for good. -/
theorem snapshot_invariant_choiceLoop :
    let c : RunContext := ⟨.choiceLoop, {}⟩
    let dispatcher : Dispatcher := .ofFunction fun _ _ => .ok ⟨.null, 1⟩
    let r := (((initial ["start"] .null).wake c).signal .pause).answer c (.ok ⟨.null, 1⟩)
    let r' := (r.signal .cancel).wake c
    Workflow.choiceLoop.startNodes none = .ok ["start"] ∧
      Leads c dispatcher AnySignal (.initial ["start"] .null) r ∧
      Shows .choiceLoop r ∧ r.snapshot.current = some "check" ∧ r.wake c = r ∧
      (r.paused = true ∧ r.cancelled = false) ∧
      r'.snapshot.status = .cancelled ∧ ((r'.signal .resume).wake c).snapshot = r'.snapshot := by
  intro c dispatcher r r'
  let trigger : Node := .new "start" "flow.manualTrigger"
  let begun : Run := ⟨.dispatching trigger, ⟨[], ∅⟩, .null, [],
    [.runStarted c.workflow.name, .nodeStarted trigger.id trigger.typeTag], false, false⟩
  have hbegun : (initial ["start"] .null).wake c = begun :=
    wake_initial [] Workflow.node?_choiceLoop rfl .null
  let taken := (begun.signal .pause).take c trigger (.ok ⟨.null, 1⟩)
  let held : Run := { { taken with traversal := ⟨[], (∅ : Std.HashSet String).insert "start"⟩
    }.announce (.runPaused "check") with phase := .held "check" }
  have hheld : (begun.signal .pause).answer c (.ok ⟨.null, 1⟩) = held :=
    (answer_of_dispatching c rfl _).trans
      (settle_of_paused c rfl rfl rfl (Traversal.next_choiceLoop _))
  have hr : r = held := by
    rw [← hheld, ← hbegun]
  have hleads : Leads c dispatcher AnySignal (.initial ["start"] .null) r := by
    have hfirst : Move c dispatcher AnySignal (.initial ["start"] .null) begun :=
      hbegun ▸ .wake
    have hlast : Move c dispatcher AnySignal (begun.signal .pause) held := hheld ▸ .answer rfl rfl
    rw [hr]
    exact .tail (.tail (.single hfirst) (.signal trivial)) hlast
  have hstarts := Workflow.startNodes_choiceLoop
  have htold := snapshot_invariant hstarts hleads
  have hcurrent : r.snapshot.current = some "check" := by rw [hr]; rfl
  have hwaiting : r.snapshot.status = .waiting := by rw [hr]; rfl
  have hwake : r.wake c = r := by rw [hr]; rfl
  have hcancelled : r'.snapshot.status = .cancelled := by
    show ((r.signal .cancel).wake c).snapshot.status = .cancelled
    rw [hr]
    rfl
  have hleads' : Leads c dispatcher AnySignal (.initial ["start"] .null) r' :=
    (hleads.tail (.signal trivial)).tail .wake
  have hlater : Leads c dispatcher AnySignal r' ((r'.signal .resume).wake c) :=
    .tail (.single (.signal trivial)) .wake
  rcases snapshot_invariant hstarts hleads' with ⟨_, _, _, hover, _⟩
  exact ⟨hstarts, hleads, htold.1, hcurrent, hwake, htold.2.1 hwaiting hwake, hcancelled,
    (hover (by rw [hcancelled]; rfl) _ hlater).1⟩

end Run

end FlowGraph
