import FlowGraph.Proofs.Run.Stopped

/-!
# Paused runs

A request to pause is heeded when the loop has taken the next id from the queue:
the run is held before that id.  This module shows that nothing is started in the
meantime, and that a paused run completes only in one way: the dispatch that was
in flight when the pause arrived leaves no id to be held before.

Main results:

- Theorem `pausing_step`: every step of a paused run starts nothing.
- Theorem `paused_starts_nothing`: what can happen during a pause.
- Theorem `lasting_step`: where a paused run can stand, seen from the pause.
- Theorem `paused_completes_only_drained`: when a run that is not resumed
  completes.
-/

namespace FlowGraph

namespace Traversal

/-- No id waits that has not been executed. -/
def Drained (t : Traversal) : Prop := ∀ id ∈ t.queue, id ∈ t.executed

/-- A drained traversal has no next id. -/
theorem Drained.next {t : Traversal} (hdrained : t.Drained) : t.next = (none, ⟨[], t.executed⟩) := by
  have hfirst := (firstWaiting_eq_none_iff t.executed t.queue).2 hdrained
  simp only [Traversal.next, hfirst]

end Traversal

namespace Run

variable {c : RunContext} {dispatcher : Dispatcher} {signals : Signal → Prop}

/-! ## The boundary after a dispatch -/

/-- A paused run is held before the id that its dispatch leaves next. -/
theorem held_of_answer {r : Run} {node : Node} {reply : Reply} {id : String} {rest : Traversal}
    (hphase : r.phase = .dispatching node) (hcancelled : r.cancelled = false)
    (hpaused : r.paused = true) (hbetween : (r.take c node reply).phase = .between)
    (hnext : (r.take c node reply).traversal.next = (some id, rest)) :
    (r.answer c reply).phase = .held id := by
  have hflags := flags_take (c := c) r node reply
  rw [answer_of_dispatching c hphase, settle_of_paused c hbetween (hflags.2.trans hcancelled)
    (hflags.1.trans hpaused) hnext]

/-- A run completes when its dispatch leaves no id, paused or not. -/
theorem completed_of_answer {r : Run} {node : Node} {reply : Reply}
    (hphase : r.phase = .dispatching node) (hcancelled : r.cancelled = false)
    (hbetween : (r.take c node reply).phase = .between)
    (hdrained : (r.take c node reply).traversal.Drained) :
    (r.answer c reply).phase = .ended .completed := by
  have hflags := flags_take (c := c) r node reply
  rw [answer_of_dispatching c hphase, settle_of_drained c hbetween (hflags.2.trans hcancelled)
    hdrained.next]
  rfl

/-! ## Nothing starts during a pause -/

variable (c dispatcher) in
/-- What can happen to a suspended run during a pause: signals arrive before the
loop acts, the last of them a pause, or the loop acts. -/
inductive PausedMove : Run → Run → Prop where
  | signals {r : Run} {sent : List Signal} : PausedMove r ((sent.foldl signal r).signal .pause)
  | act {r r' : Run} : Move c dispatcher NoSignal r r' → PausedMove r r'

/-- What a paused run has come to since an earlier state. -/
structure Pausing (dispatcher : Dispatcher) (first r : Run) : Prop where
  paused : r.paused = true
  announces : Announces (fun event => event.beginsVisit = false) first r
  noneBegun : NoneBegun dispatcher first r

/-- Every step of a paused run keeps to this, until a resumption. -/
theorem pausing_step (hsignals : ¬ signals .resume) {first r r' : Run}
    (hstep : Step c dispatcher signals r r') (hpausing : Pausing dispatcher first r) :
    Pausing dispatcher first r' := by
  have hpaused := hpausing.paused
  refine ⟨paused_step hsignals hstep hpaused, ?_,
    noneBegun_step hstep (.inl hpaused) hpausing.noneBegun⟩
  refine hpausing.announces.trans ((announces_step hstep).mono ?_)
  rintro event ⟨hvisit, _⟩
  simpa [hpaused] using hvisit

/-- Everything that can happen during a pause keeps to this. -/
theorem pausing_pausedMove {first r r' : Run} (hmove : PausedMove c dispatcher r r')
    (hsuspended : r.phase ≠ .between) (hpausing : Pausing dispatcher first r) :
    Pausing dispatcher first r' ∧ r'.phase ≠ .between := by
  cases hmove with
  | @signals sent =>
      rcases foldl_signal_eq sent r with ⟨paused, cancelled, heq⟩
      rw [heq]
      exact ⟨⟨rfl, hpausing.announces, hpausing.noneBegun.congr rfl rfl rfl⟩, hsuspended⟩
  | act hact =>
      rcases hact.steps hsuspended with ⟨hsteps, hlater⟩
      refine ⟨?_, hlater⟩
      clear hact hlater
      induction hsteps with
      | refl => exact hpausing
      | tail _ hlast ih => exact pausing_step (by simp) hlast ih

/-- A paused run starts nothing.  Whenever a pause finds the run suspended, and as
long as every signal after it is a pause or is followed by one before the loop acts:
no visit begins, no dispatch begins, and only the one in flight may leave its
result. -/
theorem paused_starts_nothing {starts : List String} {input : Json} {r r' : Run}
    (hleads : Leads c dispatcher AnySignal (.initial starts input) r)
    (hpause : Relation.ReflTransGen (PausedMove c dispatcher) (r.signal .pause) r') :
    Announces (fun event => event.beginsVisit = false) r r' ∧ NoneBegun dispatcher r r' := by
  have hsuspended := (hleads.steps (by simp [initial])).2
  have hpausing : Pausing dispatcher r r' ∧ r'.phase ≠ .between := by
    induction hpause with
    | refl =>
        exact ⟨⟨rfl, announces_of_events_eq rfl, (NoneBegun.refl dispatcher r).congr rfl rfl rfl⟩,
          hsuspended⟩
    | tail _ hlast ih => exact pausing_pausedMove hlast ih.2 ih.1
  exact ⟨hpausing.1.announces, hpausing.1.noneBegun⟩

/-- In the loop, a pause during the dispatch of the trigger holds the run before the
choice, also when it is taken back and repeated. -/
theorem paused_starts_nothing_choiceLoop :
    let c : RunContext := ⟨.choiceLoop, {}⟩
    let r := (initial ["start"] .null).wake c
    let r' := (((r.signal .pause).signal .resume).signal .pause).answer c (.ok ⟨.null, 1⟩)
    r.isOver = false ∧ r'.phase = .held "check" ∧
      Announces (fun event => event.beginsVisit = false) r r' ∧
      NoneBegun (.ofFunction fun _ _ => .ok ⟨.null, 1⟩) r r' := by
  intro c r r'
  let trigger : Node := .new "start" "flow.manualTrigger"
  let dispatcher : Dispatcher := .ofFunction fun _ _ => .ok ⟨.null, 1⟩
  have hwake : r = ⟨.dispatching trigger, ⟨[], ∅⟩, .null, [],
      [.runStarted c.workflow.name, .nodeStarted trigger.id trigger.typeTag], false, false⟩ :=
    wake_initial [] Workflow.node?_choiceLoop rfl .null
  have hleads : Leads c dispatcher AnySignal (.initial ["start"] .null) r := .single .wake
  clear_value r
  subst hwake
  have hpause : Relation.ReflTransGen (PausedMove c dispatcher) (signal _ .pause) r' :=
    .tail (.single (@PausedMove.signals c dispatcher _ [.resume])) (.act (.answer rfl rfl))
  have hnothing := paused_starts_nothing hleads hpause
  have hnext : Traversal.next (Traversal.complete ⟨[], ∅⟩ "start"
      (Workflow.choiceLoop.graph.nextHops {} trigger (some .null))) =
        (some "check", ⟨[], (∅ : Std.HashSet String).insert "start"⟩) := by
    rw [Workflow.nextHops_choiceLoop]
    exact Traversal.next_cons_of_not_mem (by simp)
  have hheld : r'.phase = .held "check" := held_of_answer rfl rfl rfl rfl hnext
  exact ⟨rfl, hheld, hnothing⟩

/-! ## When a paused run completes -/

/-- A step from a run that has announced its completion only if it has completed
leads to such a run. -/
theorem completed_step {r r' : Run} (hstep : Step c dispatcher signals r r')
    (hbefore : .runCompleted ∈ r.events → r.phase = .ended .completed)
    (hafter : .runCompleted ∈ r'.events) : r'.phase = .ended .completed := by
  have hother {r'' : Run} (hannounces : Announces (fun event => event ≠ .runCompleted) r r'')
      (hphase : r.phase ≠ .ended .completed) (hmem : .runCompleted ∈ r''.events) : False := by
    rcases hannounces with ⟨more, hmore, hne⟩
    rw [hmore, List.mem_append] at hmem
    rcases hmem with hmem | hmem
    · exact hphase (hbefore hmem)
    · exact hne _ hmem rfl
  have hvisit (event : Event) (hbegins : event.beginsVisit = true) : event ≠ .runCompleted := by
    rintro rfl
    contradiction
  have hanswer (event : Event) (htells : event.tellsAnswer = true) : event ≠ .runCompleted := by
    rintro rfl
    contradiction
  cases hstep with
  | @signal s _ _ => cases s <;> exact hbefore hafter
  | begin hphase =>
      exact (hother (announces_announce r (by simp)) (by simp [hphase]) hafter).elim
  | cancel hphase _ =>
      refine (hother (announces_announce r (by simp)) ?_ hafter).elim
      rcases hphase with hphase | ⟨id, hphase⟩ <;> simp [hphase]
  | complete _ _ _ => rfl
  | hold hphase _ _ _ =>
      exact (hother (announces_announce r (by simp)) (by simp [hphase]) hafter).elim
  | @reach id rest hphase _ _ _ =>
      have hvisited : Announces (fun event => event ≠ .runCompleted) { r with traversal := rest }
          ({ r with traversal := rest }.visit c id) :=
        announces_visit hvisit _ id
      exact (hother hvisited (by simp [hphase]) hafter).elim
  | @resume id hphase _ _ =>
      have hresumed : Announces (fun event => event ≠ .runCompleted) r
          (r.announce .runResumed) :=
        announces_announce r (by simp)
      exact (hother (hresumed.trans (announces_visit hvisit _ id)) (by simp [hphase]) hafter).elim
  | @answer node reply hphase _ =>
      exact (hother (announces_take hanswer r node reply) (by simp [hphase]) hafter).elim

/-- A run that has announced its completion has completed. -/
theorem Leads.completed {starts : List String} {input : Json} {r : Run}
    (hleads : Leads c dispatcher signals (.initial starts input) r)
    (hannounced : .runCompleted ∈ r.events) : r.phase = .ended .completed := by
  have hall : .runCompleted ∈ r.events → r.phase = .ended .completed := by
    apply hleads.induction
    · intro hmem
      simp [initial] at hmem
    · intro r r' hstep hbefore
      exact completed_step hstep hbefore
  exact hall hannounced

section

variable (c dispatcher)

/-- What a traversal can be, and which results can be there, at the boundary that
comes after a pause: the run has begun in the meantime, or its dispatch has been
answered. -/
def LeftBy (first : Run) (t : Traversal) (results : List NodeResult) : Prop :=
  (first.phase = .pending ∧ t = first.traversal) ∨
    ∃ node reply, first.phase = .dispatching node ∧ dispatcher node first.payload reply ∧
      t = (first.take c node reply).traversal ∧ results = first.results ++ [.ofReply node reply]

/-- Where a paused run can stand, seen from the pause. -/
def Lasting (first r : Run) : Prop :=
  match r.phase with
  | .pending => first.phase = .pending ∧ r.traversal = first.traversal
  | .dispatching node =>
      first.phase = .dispatching node ∧ r.traversal = first.traversal ∧
        r.payload = first.payload ∧ r.results = first.results
  | .between => LeftBy c dispatcher first r.traversal r.results
  | .ended .completed => ∃ t, t.Drained ∧ LeftBy c dispatcher first t r.results
  | _ => True

end

/-- A run that is suspended and not over can stand where it stands. -/
theorem lasting_refl {r : Run} (hsuspended : r.phase ≠ .between) (hover : r.isOver = false) :
    Lasting c dispatcher r r := by
  unfold Lasting
  cases hphase : r.phase with
  | pending => exact ⟨rfl, rfl⟩
  | between => contradiction
  | dispatching node => exact ⟨rfl, rfl, rfl, rfl⟩
  | held id => trivial
  | ended ending => simp [isOver, hphase] at hover

/-- Which traversal an answer leaves depends on the traversal before it only. -/
theorem traversal_take_congr {u r : Run} (htraversal : u.traversal = r.traversal) (node : Node)
    (reply : Reply) : (u.take c node reply).traversal = (r.take c node reply).traversal := by
  cases reply with
  | ok d => simp [take, record, announce, htraversal]
  | error e =>
      cases hcontinues : node.options.continueOnFail <;>
        simp [take, record, finish, announce, htraversal, hcontinues]

/-- Whether an answer ends the run depends on the node and the reply only. -/
theorem phase_take_congr (u r : Run) (node : Node) (reply : Reply) :
    (u.take c node reply).phase = (r.take c node reply).phase := by
  cases reply with
  | ok d => rfl
  | error e =>
      cases hcontinues : node.options.continueOnFail <;>
        simp [take, record, finish, hcontinues]

/-- Every step of a paused run keeps to where it can stand. -/
theorem lasting_step {first r r' : Run} (hstep : Step c dispatcher signals r r')
    (hpaused : r.paused = true) (hlasting : Lasting c dispatcher first r) :
    Lasting c dispatcher first r' := by
  cases hstep with
  | @signal s _ _ => cases s <;> exact hlasting
  | begin hphase =>
      simp only [Lasting, hphase] at hlasting
      exact .inl hlasting
  | cancel _ _ => trivial
  | complete hphase _ hnext =>
      simp only [Lasting, hphase] at hlasting
      exact ⟨r.traversal, (Traversal.next_eq_none hnext).1, hlasting⟩
  | hold _ _ _ _ => trivial
  | reach _ _ hunset _ => exact absurd (hpaused.symm.trans hunset) (by simp)
  | resume _ _ hunset => exact absurd (hpaused.symm.trans hunset) (by simp)
  | @answer node reply hphase hreply =>
      simp only [Lasting, hphase] at hlasting
      rcases hlasting with ⟨hfirst, htraversal, hpayload, hresults⟩
      have hleft : LeftBy c dispatcher first (r.take c node reply).traversal
          (r.take c node reply).results := by
        refine .inr ⟨node, reply, hfirst, hpayload ▸ hreply, traversal_take_congr htraversal node
          reply, ?_⟩
        rw [results_take, hresults]
      unfold Lasting
      rcases take_cases (c := c) r node reply with
        ⟨d, _, htake⟩ | ⟨e, _, _, htake⟩ | ⟨e, _, _, htake⟩
      · rw [htake] at hleft ⊢
        exact hleft
      · rw [htake] at hleft ⊢
        exact hleft
      · rw [htake]
        trivial

/-- A run that completes without a resumption since a pause was dispatching a node
when the pause arrived, and this dispatch left no id to be held before. -/
theorem drained_of_completed {w : Workflow} {defaults : RouterDefaults}
    {explicit : Option (List String)} {starts : List String} {input : Json} {r r' : Run}
    (hstarts : w.startNodes explicit = .ok starts)
    (hleads : Leads ⟨w, defaults⟩ dispatcher AnySignal (.initial starts input) r)
    (hover : r.isOver = false)
    (hlater : Leads ⟨w, defaults⟩ dispatcher (fun s => s ≠ .resume) (r.signal .pause) r')
    (hphase : r'.phase = .ended .completed) :
    ∃ node reply, r.phase = .dispatching node ∧ dispatcher node r.payload reply ∧
      r'.results = r.results ++ [.ofReply node reply] ∧
      (r.take ⟨w, defaults⟩ node reply).traversal.Drained := by
  have hsuspended := (hleads.steps (by simp [initial])).2
  have hsteps := (hlater.steps (r := r.signal .pause) hsuspended).1
  have hlasting : r'.paused = true ∧ Lasting ⟨w, defaults⟩ dispatcher r r' := by
    clear hlater hphase
    induction hsteps with
    | refl => exact ⟨rfl, lasting_refl hsuspended hover⟩
    | tail _ hlast ih =>
        exact ⟨paused_step (by simp) hlast ih.1, lasting_step hlast ih.1 ih.2⟩
  have hdrained := hlasting.2
  simp only [Lasting, hphase] at hdrained
  rcases hdrained with ⟨t, hdrained, ⟨hpending, rfl⟩ | ⟨node, reply, hfirst, hreply, rfl, hresults⟩⟩
  · -- The starts wait, and none has been executed.
    rcases hleads.eq_initial_of_pending hpending with ⟨_, _, rfl⟩
    rcases List.exists_mem_of_ne_nil starts (Workflow.startNodes_eq_ok hstarts).1 with ⟨id, hid⟩
    have hexecuted := hdrained id hid
    simp [Traversal.start] at hexecuted
  · exact ⟨node, reply, hfirst, hreply, hresults, hdrained⟩

/-- A pause that is not followed by a resumption keeps a run from completing, with
one exception: it arrives while a node is being dispatched, and this dispatch leaves
no id to hold the run before.  Then the run completes, unless it is cancelled or the
dispatch fails it. -/
theorem paused_completes_only_drained {w : Workflow} {defaults : RouterDefaults}
    {explicit : Option (List String)} {starts : List String} {input : Json} {r r' : Run}
    (hstarts : w.startNodes explicit = .ok starts)
    (hleads : Leads ⟨w, defaults⟩ dispatcher AnySignal (.initial starts input) r)
    (hover : r.isOver = false)
    (hlater : Leads ⟨w, defaults⟩ dispatcher (fun s => s ≠ .resume) (r.signal .pause) r') :
    (r'.snapshot.status = .completed ∨ .runCompleted ∈ r'.events →
      ∃ node reply, r.phase = .dispatching node ∧ dispatcher node r.payload reply ∧
        r'.results = r.results ++ [.ofReply node reply] ∧
        (r.take ⟨w, defaults⟩ node reply).traversal.Drained) ∧
      ∀ node reply, r.phase = .dispatching node → r.cancelled = false →
        (r.take ⟨w, defaults⟩ node reply).phase = .between →
        (r.take ⟨w, defaults⟩ node reply).traversal.Drained →
        ((r.signal .pause).answer ⟨w, defaults⟩ reply).snapshot.status = .completed := by
  constructor
  · intro hcompleted
    have hall : Leads ⟨w, defaults⟩ dispatcher AnySignal (.initial starts input) r' :=
      hleads.trans (.head (.signal trivial) (hlater.mono fun _ _ => trivial))
    apply drained_of_completed hstarts hleads hover hlater
    rcases hcompleted with hstatus | hannounced
    · exact phase_of_status_completed hstatus
    · exact hall.completed hannounced
  · intro node reply hphase hcancelled hbetween hdrained
    have htraversal : ((r.signal .pause).take ⟨w, defaults⟩ node reply).traversal =
        (r.take ⟨w, defaults⟩ node reply).traversal :=
      traversal_take_congr (u := r.signal .pause) (r := r) rfl node reply
    have hpaused : ((r.signal .pause).answer ⟨w, defaults⟩ reply).phase = .ended .completed := by
      have hdispatching : (r.signal .pause).phase = .dispatching node := by
        rw [phase_signal, hphase]
      apply completed_of_answer hdispatching
      · exact hcancelled
      · rw [phase_take_congr _ r, hbetween]
      · rwa [htraversal]
    rw [snapshot, hpaused]
    rfl

/-- In the loop, a pause during the dispatch of the trigger keeps the run from
completing, for the choice is left. -/
theorem paused_completes_only_drained_choiceLoop :
    let c : RunContext := ⟨.choiceLoop, {}⟩
    let r := (initial ["start"] .null).wake c
    let r' := (r.signal .pause).answer c (.ok ⟨.null, 1⟩)
    Workflow.choiceLoop.startNodes none = .ok ["start"] ∧ r.isOver = false ∧
      r'.snapshot.status ≠ .completed ∧ .runCompleted ∉ r'.events := by
  intro c r r'
  let trigger : Node := .new "start" "flow.manualTrigger"
  let dispatcher : Dispatcher := .ofFunction fun _ _ => .ok ⟨.null, 1⟩
  have hwake : r = ⟨.dispatching trigger, ⟨[], ∅⟩, .null, [],
      [.runStarted c.workflow.name, .nodeStarted trigger.id trigger.typeTag], false, false⟩ :=
    wake_initial [] Workflow.node?_choiceLoop rfl .null
  have hleads : Leads c dispatcher AnySignal (.initial ["start"] .null) r := .single .wake
  clear_value r
  subst hwake
  have hlater : Leads c dispatcher (fun s => s ≠ .resume) (signal _ .pause) r' :=
    .single (.answer rfl rfl)
  have hdrained := (paused_completes_only_drained Workflow.startNodes_choiceLoop hleads rfl
    hlater).1
  have hnot : ¬ (r'.snapshot.status = .completed ∨ .runCompleted ∈ r'.events) := by
    intro hcompleted
    rcases hdrained hcompleted with ⟨node, reply, hphase, hreply, _, hall⟩
    obtain rfl : trigger = node := Phase.dispatching.inj hphase
    obtain rfl : reply = .ok ⟨.null, 1⟩ := hreply
    have hwaits : "check" ∈ Workflow.choiceLoop.graph.nextHops {} trigger (some .null) := by
      rw [Workflow.nextHops_choiceLoop]
      exact List.mem_cons_self
    have hexecuted : "check" ∈ (∅ : Std.HashSet String).insert "start" :=
      hall "check" (List.mem_append_right _ hwaits)
    simp at hexecuted
  rw [not_or] at hnot
  exact ⟨Workflow.startNodes_choiceLoop, rfl, hnot⟩

/-- In the loop, a run that starts at its last node completes although a pause
arrives during this dispatch and no resumption follows. -/
theorem pause_during_last_dispatch_completes :
    let c : RunContext := ⟨.choiceLoop, {}⟩
    let dispatcher : Dispatcher := .ofFunction fun _ _ => .ok ⟨.null, 1⟩
    let r := (initial ["done"] .null).wake c
    let r' := (r.signal .pause).answer c (.ok ⟨.null, 1⟩)
    Workflow.choiceLoop.startNodes (some ["done"]) = .ok ["done"] ∧
      Leads c dispatcher AnySignal (.initial ["done"] .null) r ∧ r.isOver = false ∧
      Leads c dispatcher (fun s => s ≠ .resume) (r.signal .pause) r' ∧
      r'.snapshot.status = .completed ∧ .runCompleted ∈ r'.events := by
  intro c dispatcher r r'
  let last : Node := .new "done" "flow.noOp"
  let begun : Run := ⟨.dispatching last, ⟨[], ∅⟩, .null, [],
    [.runStarted c.workflow.name, .nodeStarted last.id last.typeTag], false, false⟩
  have hwake : r = begun := wake_initial [] Workflow.node?_done_choiceLoop rfl .null
  have hleads : Leads c dispatcher AnySignal (.initial ["done"] .null) r := .single .wake
  clear_value r
  subst hwake
  have hlater : Leads c dispatcher (fun s => s ≠ .resume) (begun.signal .pause) r' :=
    .single (.answer rfl rfl)
  let taken := (begun.signal .pause).take c last (.ok ⟨.null, 1⟩)
  have hnext : taken.traversal.next = (none, ⟨[], (∅ : Std.HashSet String).insert "done"⟩) := by
    show Traversal.next (Traversal.complete ⟨[], ∅⟩ "done"
      (Workflow.choiceLoop.graph.nextHops {} last (some .null))) = _
    rw [Workflow.nextHops_done_choiceLoop]
    exact Traversal.next_nil _
  have hanswer : r' = taken.settle c := answer_of_dispatching c rfl _
  have hsettle := settle_of_drained c (r := taken) rfl rfl hnext
  refine ⟨Workflow.startNodes_done_choiceLoop, hleads, rfl, hlater, ?_, ?_⟩
  · rw [hanswer, hsettle]
    rfl
  · rw [hanswer, hsettle]
    exact List.mem_append_right _ List.mem_cons_self

end Run

end FlowGraph
