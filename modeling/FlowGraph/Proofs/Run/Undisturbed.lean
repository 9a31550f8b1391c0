import FlowGraph.Proofs.Run.Failures
import FlowGraph.Proofs.Run.Results

/-!
# Signals only delay or truncate a run

A run that no signal disturbs is determined by its dispatcher.  This module lets
such a run accompany one that takes signals: it waits where the other is held,
stops where the other is cancelled, and otherwise takes the same step.  So the
two have the same results at every moment, and the undisturbed run goes on from
them to its end.

Main results:

- Theorem `undisturbed_isOver`: a run that no signal disturbs ends.
- Theorem `accompanies_step`: every step of a run is matched by the run that no
  signal disturbs.
- Theorem `signals_delay_or_truncate`: signals only delay or truncate a run.
-/

namespace FlowGraph

namespace Run

section

variable (c : RunContext) (dispatch : Node → Json → Reply)

/-! ## A run that no signal disturbs -/

/-- Answer the dispatches of a run, at most `fuel` of them. -/
def drive : Nat → Run → Run
  | 0, r => r
  | fuel + 1, r =>
    match r.phase with
    | .dispatching node => drive fuel (r.answer c (dispatch node r.payload))
    | _ => r

/-- The run that no signal disturbs, as far as it gets.  Every answer leaves a
result and no node leaves two. -/
def undisturbed (starts : List String) (input : Json) : Run :=
  drive c dispatch (c.workflow.nodes.length + 1) ((initial starts input).wake c)

/-- A run that heeds no signal is neither paused nor cancelled nor held. -/
structure Heedless (r : Run) : Prop where
  paused : r.paused = false
  cancelled : r.cancelled = false
  not_held : ∀ id, r.phase ≠ .held id

variable {c dispatch}

/-- Visiting an id heeds no signal. -/
theorem heedless_visit {r : Run} (hpaused : r.paused = false) (hcancelled : r.cancelled = false)
    (id : String) : Heedless (r.visit c id) := by
  rcases visit_cases (c := c) r id with
    ⟨_, hvisit⟩ | ⟨node, _, _, hvisit⟩ | ⟨node, _, _, hvisit⟩ <;> rw [hvisit]
  · exact ⟨hpaused, hcancelled, by simp⟩
  · exact ⟨hpaused, hcancelled, by simp [record]⟩
  · exact ⟨hpaused, hcancelled, by simp⟩

/-- Without signals, no step heeds one. -/
theorem heedless_step {dispatcher : Dispatcher} {r r' : Run}
    (hstep : Step c dispatcher NoSignal r r') (hheedless : Heedless r) : Heedless r' := by
  rcases hheedless with ⟨hpaused, hcancelled, hheld⟩
  cases hstep with
  | signal _ hsignal => exact hsignal.elim
  | begin _ => exact ⟨hpaused, hcancelled, by simp⟩
  | cancel _ hcancel => exact absurd (hcancelled.symm.trans hcancel) (by simp)
  | complete _ _ _ => exact ⟨hpaused, hcancelled, by simp [finish]⟩
  | hold _ _ hpause _ => exact absurd (hpaused.symm.trans hpause) (by simp)
  | @reach id rest _ _ _ _ =>
      exact heedless_visit (r := { r with traversal := rest }) hpaused hcancelled id
  | resume hphase _ _ => exact absurd hphase (hheld _)
  | @answer node reply _ _ =>
      rcases take_cases (c := c) r node reply with
        ⟨d, _, htake⟩ | ⟨e, _, _, htake⟩ | ⟨e, _, _, htake⟩ <;> rw [htake]
      · exact ⟨hpaused, hcancelled, by simp [record]⟩
      · exact ⟨hpaused, hcancelled, by simp [record]⟩
      · exact ⟨hpaused, hcancelled, by simp [finish]⟩

/-- Without signals, a run that has begun is over or dispatches a node. -/
theorem Leads.over_or_dispatching {dispatcher : Dispatcher} {starts : List String} {input : Json}
    {r : Run} (hleads : Leads c dispatcher NoSignal (.initial starts input) r)
    (hbegun : r.phase ≠ .pending) : r.isOver = true ∨ ∃ node, r.phase = .dispatching node := by
  have hheedless : Heedless r :=
    hleads.induction ⟨rfl, rfl, by simp [initial]⟩ fun _ _ => heedless_step
  have hsuspended := (hleads.steps (by simp [initial])).2
  cases hphase : r.phase with
  | pending => exact absurd hphase hbegun
  | between => exact absurd hphase hsuspended
  | held id => exact absurd hphase (hheedless.not_held id)
  | ended ending => exact .inl (by simp [isOver, hphase])
  | dispatching node => exact .inr ⟨node, rfl⟩

/-- Driving a run is moving it without signals. -/
theorem leads_drive (fuel : Nat) (r : Run) :
    Leads c (.ofFunction dispatch) NoSignal r (drive c dispatch fuel r) := by
  induction fuel generalizing r with
  | zero => exact .refl
  | succ fuel ih =>
      unfold drive
      split
      · rename_i node hphase
        exact .head (.answer hphase rfl) (ih _)
      · exact .refl

/-- The run that no signal disturbs is a run. -/
theorem leads_undisturbed (starts : List String) (input : Json) :
    Leads c (.ofFunction dispatch) NoSignal (.initial starts input)
      (undisturbed c dispatch starts input) :=
  .head .wake (leads_drive _ _)

/-- A run that is driven long enough is over: every answer leaves one more
result, and there are no more results than nodes. -/
theorem isOver_drive {starts : List String} {input : Json} (fuel : Nat) {r : Run}
    (hleads : Leads c (.ofFunction dispatch) NoSignal (.initial starts input) r)
    (hbegun : r.phase ≠ .pending) (hfuel : c.workflow.nodes.length < r.results.length + fuel) :
    (drive c dispatch fuel r).isOver = true := by
  induction fuel generalizing r with
  | zero =>
      have hle := hleads.visits.1.length_results_le
      omega
  | succ fuel ih =>
      rcases hleads.over_or_dispatching hbegun with hover | ⟨node, hphase⟩
      · unfold drive
        split
        · rename_i node hphase
          simp [isOver, hphase] at hover
        · exact hover
      · have hmove : Move c (.ofFunction dispatch) NoSignal r
            (r.answer c (dispatch node r.payload)) :=
          .answer hphase rfl
        have hlonger := length_results_answer (c := c) hphase (dispatch node r.payload)
        simp only [drive, hphase]
        apply ih (hleads.tail hmove)
        · exact begun_answer hphase _
        · omega

/-- A run that no signal disturbs ends. -/
theorem undisturbed_isOver (starts : List String) (input : Json) :
    (undisturbed c dispatch starts input).isOver = true := by
  have hleads : Leads c (.ofFunction dispatch) NoSignal (.initial starts input)
      ((initial starts input).wake c) :=
    .single .wake
  exact isOver_drive _ hleads (begun_wake_initial starts input) (by omega)

/-! ## No other run goes undisturbed -/

variable (c dispatch)

/-- The step that a run takes by itself, or by the answer of its dispatch. -/
def advance? (r : Run) : Option Run :=
  match r.phase with
  | .pending => some { r.announce (.runStarted c.workflow.name) with phase := .between }
  | .between => some (r.turn c)
  | .dispatching node => some (r.take c node (dispatch node r.payload))
  | .held id =>
    if r.cancelled then some (r.finish .cancelled)
    else if r.paused then none
    else some ((r.announce .runResumed).visit c id)
  | .ended _ => none

variable {c dispatch}

/-- Without signals, there is only one step to take. -/
theorem advance?_of_step {r r' : Run} (hstep : Step c (.ofFunction dispatch) NoSignal r r') :
    advance? c dispatch r = some r' := by
  unfold advance?
  cases hstep with
  | signal _ hsignal => exact hsignal.elim
  | begin hphase => simp only [hphase]
  | cancel hphase hcancelled =>
      rcases hphase with hphase | ⟨id, hphase⟩
      · simp only [hphase, turn, hcancelled, if_true]
      · simp only [hphase, hcancelled, if_true]
  | complete hphase hcancelled hnext =>
      simp only [hphase, turn, hcancelled, hnext, Bool.false_eq_true, if_false]
  | hold hphase hcancelled hpaused hnext =>
      simp only [hphase, turn, hcancelled, hpaused, hnext, Bool.false_eq_true, if_false, if_true]
  | reach hphase hcancelled hpaused hnext =>
      simp only [hphase, turn, hcancelled, hpaused, hnext, Bool.false_eq_true, if_false]
  | resume hphase hcancelled hpaused =>
      simp only [hphase, hcancelled, hpaused, Bool.false_eq_true, if_false]
  | answer hphase hreply =>
      simp only [hphase]
      rw [hreply]

/-- Two steps without signals from one state lead to the same state. -/
theorem rightUnique_step : Relator.RightUnique (Step c (.ofFunction dispatch) NoSignal) := by
  intro r r₁ r₂ hstep₁ hstep₂
  exact Option.some.inj ((advance?_of_step hstep₁).symm.trans (advance?_of_step hstep₂))

/-- A run that is over takes no step without signals. -/
theorem eq_of_steps_of_over {r r' : Run} (hover : r.isOver = true)
    (hsteps : Steps c (.ofFunction dispatch) NoSignal r r') : r = r' := by
  rcases hsteps.cases_head with heq | ⟨next, hstep, _⟩
  · exact heq
  · have hnone : advance? c dispatch r = none := by
      unfold isOver at hover
      unfold advance?
      split at hover
      · rename_i hphase
        simp only [hphase]
      · contradiction
    have hsome := advance?_of_step hstep
    rw [hnone] at hsome
    contradiction

/-- Every state that is reached without signals is on the way to the end of the
undisturbed run. -/
theorem steps_undisturbed {starts : List String} {input : Json} {u : Run}
    (hsteps : Steps c (.ofFunction dispatch) NoSignal (.initial starts input) u) :
    Steps c (.ofFunction dispatch) NoSignal u (undisturbed c dispatch starts input) := by
  have hleads : Leads c (.ofFunction dispatch) NoSignal (.initial starts input)
      (undisturbed c dispatch starts input) :=
    leads_undisturbed starts input
  have hlast := (hleads.steps (by simp [initial])).1
  rcases Relation.ReflTransGen.total_of_right_unique rightUnique_step hsteps hlast with
    hon | hback
  · exact hon
  · rw [eq_of_steps_of_over (undisturbed_isOver starts input) hback]

/-! ## The undisturbed run accompanies every other one -/

/-- One run accompanies another: it has left and carries the same, waits before
the id that the other is held at, stops anywhere when the other is cancelled, and
stands at the same place otherwise. -/
structure Accompanies (u r : Run) : Prop where
  results : u.results = r.results
  payload : u.payload = r.payload
  heedless : Heedless u
  place :
    match r.phase with
    | .ended .cancelled => True
    | .held id => u.phase = .between ∧ u.traversal.next = (some id, r.traversal)
    | phase => u.phase = phase ∧ u.traversal = r.traversal

/-- Two runs that visit the same id from the same traversal keep company. -/
theorem accompanies_visit {u r : Run} (hresults : u.results = r.results)
    (hpayload : u.payload = r.payload) (htraversal : u.traversal = r.traversal)
    (hpaused : u.paused = false) (hcancelled : u.cancelled = false) (id : String) :
    Accompanies (u.visit c id) (r.visit c id) := by
  have hheedless := heedless_visit (c := c) hpaused hcancelled id
  unfold visit at hheedless ⊢
  cases hnode : c.workflow.node? id with
  | none =>
      simp only [hnode] at hheedless
      exact ⟨hresults, hpayload, hheedless, rfl, htraversal⟩
  | some node =>
      simp only [hnode] at hheedless
      cases hdisabled : node.disabled with
      | true =>
          simp only [hdisabled, if_true] at hheedless ⊢
          exact ⟨by simp [record, hresults], hpayload, hheedless, rfl,
            by simp [record, htraversal]⟩
      | false =>
          simp only [hdisabled, Bool.false_eq_true, if_false] at hheedless ⊢
          exact ⟨hresults, hpayload, hheedless, rfl, htraversal⟩

/-- Two runs that take the same answer from the same traversal keep company. -/
theorem accompanies_take {u r : Run} (hresults : u.results = r.results)
    (hpayload : u.payload = r.payload) (htraversal : u.traversal = r.traversal)
    {node : Node} {reply : Reply} (hheedless : Heedless (u.take c node reply)) :
    Accompanies (u.take c node reply) (r.take c node reply) := by
  have hresult : (u.take c node reply).results = (r.take c node reply).results := by
    rw [results_take, results_take, hresults]
  unfold take at hheedless hresult ⊢
  cases reply with
  | ok d => exact ⟨hresult, rfl, hheedless, rfl, by simp [record, htraversal]⟩
  | error e =>
      cases hcontinues : node.options.continueOnFail with
      | true =>
          simp only [hcontinues, if_true] at hheedless hresult ⊢
          exact ⟨hresult, hpayload, hheedless, rfl, by simp [record, htraversal]⟩
      | false =>
          simp only [hcontinues, Bool.false_eq_true, if_false] at hheedless hresult ⊢
          exact ⟨hresult, hpayload, hheedless, rfl, by simp [record, finish, announce, htraversal]⟩

/-- A run that is over without being cancelled is accompanied to its end. -/
theorem Accompanies.outcome?_eq {u r : Run} (haccompanies : Accompanies u r)
    (hover : r.isOver = true) (hcancelled : r.phase ≠ .ended .cancelled) :
    u.isOver = true ∧ u.outcome? = r.outcome? := by
  have hphase : u.phase = r.phase := by
    have hplace := haccompanies.place
    unfold isOver at hover
    split at hover
    · rename_i ending hphase
      cases ending with
      | cancelled => exact absurd hphase hcancelled
      | completed =>
          simp only [hphase] at hplace
          rw [hphase, hplace.1]
      | failed e =>
          simp only [hphase] at hplace
          rw [hphase, hplace.1]
    · contradiction
  constructor
  · unfold isOver at hover ⊢
    rwa [hphase]
  · unfold outcome?
    rw [hphase, haccompanies.results, haccompanies.payload]

/-- Every step of a run is matched by one step without signals, or by none. -/
theorem accompanies_step {dispatcher : Dispatcher} {signals : Signal → Prop} {u r r' : Run}
    (hstep : Step c dispatcher signals r r') (haccompanies : Accompanies u r) :
    ∃ u', Steps c dispatcher NoSignal u u' ∧ Accompanies u' r' := by
  rcases haccompanies with ⟨hresults, hpayload, hheedless, hplace⟩
  have hpaused := hheedless.paused
  have hcancelled := hheedless.cancelled
  cases hstep with
  | @signal s _ _ => cases s <;> exact ⟨u, .refl, hresults, hpayload, hheedless, hplace⟩
  | begin hphase =>
      simp only [hphase] at hplace
      have hbegin : Step c dispatcher NoSignal u _ := .begin hplace.1
      exact ⟨_, .single hbegin, hresults, hpayload, heedless_step hbegin hheedless, rfl, hplace.2⟩
  | cancel _ _ => exact ⟨u, .refl, hresults, hpayload, hheedless, trivial⟩
  | complete hphase _ hnext =>
      simp only [hphase] at hplace
      rw [← hplace.2] at hnext
      have hcomplete : Step c dispatcher NoSignal u _ := .complete hplace.1 hcancelled hnext
      exact ⟨_, .single hcomplete, hresults, hpayload, heedless_step hcomplete hheedless, rfl, rfl⟩
  | hold hphase _ _ hnext =>
      simp only [hphase] at hplace
      rw [← hplace.2] at hnext
      exact ⟨u, .refl, hresults, hpayload, hheedless, hplace.1, hnext⟩
  | @reach id rest hphase _ _ hnext =>
      simp only [hphase] at hplace
      rw [← hplace.2] at hnext
      exact ⟨_, .single (.reach hplace.1 hcancelled hpaused hnext),
        accompanies_visit (u := { u with traversal := rest }) (r := { r with traversal := rest })
          hresults hpayload rfl hpaused hcancelled id⟩
  | @resume id hphase _ _ =>
      -- The undisturbed run stands before the test that has held this one.
      simp only [hphase] at hplace
      exact ⟨_, .single (.reach hplace.1 hcancelled hpaused hplace.2),
        accompanies_visit (u := { u with traversal := r.traversal }) (r := r.announce .runResumed)
          hresults hpayload rfl hpaused hcancelled id⟩
  | @answer node reply hphase hreply =>
      simp only [hphase] at hplace
      rw [← hpayload] at hreply
      have hanswer : Step c dispatcher NoSignal u (u.take c node reply) := .answer hplace.1 hreply
      exact ⟨_, .single hanswer,
        accompanies_take hresults hpayload hplace.2 (heedless_step hanswer hheedless)⟩

/-- Every state of every run is accompanied by a state of the run without
signals. -/
theorem Leads.accompanied {dispatcher : Dispatcher} {signals : Signal → Prop}
    {starts : List String} {input : Json} {r : Run}
    (hleads : Leads c dispatcher signals (.initial starts input) r) :
    ∃ u, Steps c dispatcher NoSignal (.initial starts input) u ∧ Accompanies u r := by
  apply hleads.induction
  · exact ⟨_, .refl, rfl, rfl, ⟨rfl, rfl, by simp [initial]⟩, rfl, rfl⟩
  · rintro r r' hstep ⟨u, hsteps, haccompanies⟩
    rcases accompanies_step hstep haccompanies with ⟨u', hmore, haccompanies'⟩
    exact ⟨u', hsteps.trans hmore, haccompanies'⟩

/-- Signals only delay or truncate a run.  Whatever signals arrive, and wherever
the run stands, its results are the first results of the run that no signal
disturbs, which always ends; and its payload is the one which that run carried
when it had these results.  A run that was not asked to cancel ends with the
same status, results, output and error. -/
theorem signals_delay_or_truncate (dispatch : Node → Json → Reply) {signals : Signal → Prop}
    {starts : List String} {input : Json} {r : Run}
    (hleads : Leads c (.ofFunction dispatch) signals (.initial starts input) r) :
    let final := undisturbed c dispatch starts input
    final.isOver = true ∧
      r.results <+: final.results ∧
      (∃ u, Steps c (.ofFunction dispatch) NoSignal (.initial starts input) u ∧
        Steps c (.ofFunction dispatch) NoSignal u final ∧ u.results = r.results) ∧
      (∀ u, Steps c (.ofFunction dispatch) NoSignal (.initial starts input) u →
        u.results = r.results → u.payload = r.payload) ∧
      (¬ signals .cancel → r.isOver = true → r.outcome? = final.outcome?) := by
  intro final
  rcases hleads.accompanied with ⟨u, hsteps, haccompanies⟩
  have hfinal := steps_undisturbed hsteps
  refine ⟨undisturbed_isOver starts input, ?_, ⟨u, hsteps, hfinal, haccompanies.results⟩, ?_, ?_⟩
  · rw [← haccompanies.results]
    exact results_prefix_steps hfinal
  · intro u' hsteps' hresults'
    have hcarries := carries_steps hsteps
    have hcarries' := carries_steps hsteps'
    rw [← haccompanies.payload, hcarries, hcarries', hresults', haccompanies.results]
  · intro hsignals hover
    have huncancelled := hleads.uncancelled hsignals
    rcases haccompanies.outcome?_eq hover huncancelled.2 with ⟨huover, houtcome⟩
    rw [← houtcome, eq_of_steps_of_over huover hfinal]

/-- In the loop, a pause and a resumption before the beginning are not seen when
the trigger fails. -/
theorem signals_delay_or_truncate_choiceLoop :
    let e : ActivityError := ⟨"start", .failed "unplugged", 1⟩
    let result := NodeResult.ofReply (.new "start" "flow.manualTrigger") (.error e)
    let begun := (((initial ["start"] .null).signal .pause).signal .resume).wake ⟨.choiceLoop, {}⟩
    let final := undisturbed ⟨.choiceLoop, {}⟩ (fun _ _ => .error e) ["start"] .null
    Leads ⟨.choiceLoop, {}⟩ (.ofFunction fun _ _ => .error e) (fun s => s ≠ .cancel)
        (.initial ["start"] .null) (begun.answer ⟨.choiceLoop, {}⟩ (.error e)) ∧
      final.outcome? = some ⟨.failed, [result], .null, some e.message⟩ := by
  intro e result begun final
  have hnode := Workflow.node?_choiceLoop
  rcases outcome?_of_failed_start (c := ⟨.choiceLoop, {}⟩) [] hnode rfl rfl .null e with
    ⟨hphase, hout⟩
  have hleads : Leads ⟨.choiceLoop, {}⟩ (.ofFunction fun _ _ => .error e) (fun s => s ≠ .cancel)
      (.initial ["start"] .null) (begun.answer ⟨.choiceLoop, {}⟩ (.error e)) :=
    .tail (.tail (.tail (.single (.signal (by decide))) (.signal (by decide))) .wake)
      (.answer hphase rfl)
  have hover : (begun.answer ⟨.choiceLoop, {}⟩ (.error e)).isOver = true := by
    rcases outcome?_eq_some hout with ⟨ending, hended, _⟩
    unfold isOver
    rw [show (begun.answer ⟨.choiceLoop, {}⟩ (.error e)).phase = _ from hended]
  rcases signals_delay_or_truncate (fun _ _ => .error e) hleads with ⟨_, _, _, _, hsame⟩
  exact ⟨hleads, (hsame (by simp) hover).symm.trans hout⟩

end

end Run

end FlowGraph
