import FlowGraph.Proofs.Activity.Dispatch
import FlowGraph.Proofs.Run.Stopped
import FlowGraph.Proofs.Run.Timed
import FlowGraph.Proofs.Run.Undisturbed

/-!
# Deadlines past the end of the clock

A dispatch that cannot compute its deadline stops its run for good.  This module shows
that nothing else does: a run is aborted just if it has started a node at an instant
from which the node's deadline lies past the end of the clock, and a run that is not
aborted has an outcome after some time.

Main results:

- Theorem `starts_answer`: a run that goes on starts the node that it then dispatches,
  and no other.
- Theorem `clocked_tick`: every step of a timed run keeps it aborted just if a logged
  start overruns the clock.
- Theorem `ends_passUntil`: without signals, a run is aborted or over after some time.
- Theorem `runTimed_ends_unless_overran`: which runs have an outcome, and which are
  aborted.

Current gaps:

- That a run ends is shown without signals only.  Under a timeline it is shown when a
  run is aborted; one that stays paused has no end.
-/

namespace FlowGraph

namespace Run

variable {c : RunContext}

/-! ## Which nodes are started -/

/-- From one state to a later one, the node that is dispatched at the end was started,
and no other node was. -/
def Starts (r r' : Run) : Prop :=
  ∃ more, r'.events = r.events ++ more ∧ ∀ id typeTag, Event.nodeStarted id typeTag ∈ more ↔
    ∃ node, r'.phase = .dispatching node ∧ node.id = id ∧ node.typeTag = typeTag

/-- Without a start and without a dispatch at the end, no node is started. -/
theorem starts_of_quiet {r r' : Run} (more : List Event) (hevents : r'.events = r.events ++ more)
    (hquiet : ∀ id typeTag, Event.nodeStarted id typeTag ∉ more)
    (hidle : ∀ node, r'.phase ≠ .dispatching node) : Starts r r' :=
  ⟨more, hevents, fun id typeTag =>
    iff_of_false (hquiet id typeTag) fun ⟨node, hphase, _⟩ => hidle node hphase⟩

/-- What happens before a state without a dispatch started nothing. -/
theorem Starts.trans {r₁ r₂ r₃ : Run} (hfirst : Starts r₁ r₂)
    (hidle : ∀ node, r₂.phase ≠ .dispatching node) (hsecond : Starts r₂ r₃) : Starts r₁ r₃ := by
  rcases hfirst with ⟨more, hmore, hquiet⟩
  rcases hsecond with ⟨rest, hrest, hstarts⟩
  refine ⟨more ++ rest, by rw [hrest, hmore, List.append_assoc], ?_⟩
  intro id typeTag
  have hnone : Event.nodeStarted id typeTag ∉ more := by
    rw [hquiet]
    rintro ⟨node, hphase, _⟩
    exact hidle node hphase
  rw [List.mem_append, or_iff_right hnone, hstarts]

/-- Visiting an id starts the node that is then dispatched. -/
theorem starts_visit (r : Run) (id : String) : Starts r (r.visit c id) := by
  rcases visit_cases (c := c) r id with
    ⟨_, hvisit⟩ | ⟨node, _, _, hvisit⟩ | ⟨node, _, _, hvisit⟩ <;> rw [hvisit]
  · exact starts_of_quiet [] (by simp) (by simp) (by simp)
  · exact starts_of_quiet [.nodeSkipped node.id] rfl (by simp) (by simp [record])
  · refine ⟨[.nodeStarted node.id node.typeTag], rfl, ?_⟩
    intro id typeTag
    simp [eq_comm]

/-- A turn starts the node that is then dispatched. -/
theorem starts_turn (r : Run) : Starts r (r.turn c) := by
  rcases turn_cases (c := c) r with ⟨_, hturn⟩ | ⟨_, rest, _, hturn⟩ |
    ⟨_, _, id, rest, _, hturn⟩ | ⟨_, _, id, rest, _, hturn⟩ <;> rw [hturn]
  · exact starts_of_quiet [.runCancelled] rfl (by simp) (by simp [finish])
  · exact starts_of_quiet [.runCompleted] rfl (by simp) (by simp [finish])
  · exact starts_of_quiet [.runPaused id] rfl (by simp) (by simp)
  · exact starts_visit (c := c) { r with traversal := rest } id

/-- Turns start the node that is then dispatched: every turn but the last leaves the
loop at a boundary. -/
theorem starts_turns (fuel : Nat) {r : Run} (hidle : ∀ node, r.phase ≠ .dispatching node) :
    Starts r (r.turns c fuel) := by
  have hstill {r : Run} (hidle : ∀ node, r.phase ≠ .dispatching node) : Starts r r :=
    starts_of_quiet [] (by simp) (by simp) hidle
  induction fuel generalizing r with
  | zero =>
      simp only [turns]
      exact hstill hidle
  | succ fuel ih =>
      by_cases hphase : r.phase = .between
      · rw [turns_succ c fuel hphase]
        by_cases hbetween : (r.turn c).phase = .between
        · have hidle' : ∀ node, (r.turn c).phase ≠ .dispatching node := by simp [hbetween]
          exact (starts_turn r).trans hidle' (ih hidle')
        · rw [turns_of_suspended c _ hbetween]
          exact starts_turn r
      · rw [turns_of_suspended c _ hphase]
        exact hstill hidle

/-- A visit and the turns after it start the node that is then dispatched. -/
theorem starts_settle_visit (r : Run) (id : String) : Starts r ((r.visit c id).settle c) := by
  by_cases hbetween : (r.visit c id).phase = .between
  · have hidle : ∀ node, (r.visit c id).phase ≠ .dispatching node := by simp [hbetween]
    exact (starts_visit r id).trans hidle (starts_turns _ hidle)
  · rw [settle, turns_of_suspended c _ hbetween]
    exact starts_visit r id

/-- A run that is woken starts the node that it then dispatches. -/
theorem starts_wake {r : Run} (hidle : ∀ node, r.phase ≠ .dispatching node) :
    Starts r (r.wake c) := by
  have hstill : Starts r r := starts_of_quiet [] (by simp) (by simp) hidle
  unfold wake
  split
  · have hbegun : Starts r
        { r.announce (.runStarted c.workflow.name) with phase := .between } :=
      starts_of_quiet [.runStarted c.workflow.name] rfl (by simp) (by simp)
    exact hbegun.trans (by simp) (starts_turns _ (by simp))
  · rename_i id hheld
    split
    · exact starts_of_quiet [.runCancelled] rfl (by simp) (by simp [finish])
    · split
      · exact hstill
      · have hresumed : Starts r (r.announce .runResumed) :=
          starts_of_quiet [.runResumed] rfl (by simp) hidle
        exact hresumed.trans hidle (starts_settle_visit _ id)
  · exact hstill

/-- A run whose dispatch is answered starts the node that it then dispatches. -/
theorem starts_answer {r : Run} {node : Node} (hphase : r.phase = .dispatching node)
    (reply : Reply) : Starts r (r.answer c reply) := by
  have htaken : Starts r (r.take c node reply) := by
    have hidle := fun other => idle_take (c := c) r node other reply
    rcases take_cases (c := c) r node reply with
      ⟨d, _, htake⟩ | ⟨e, _, _, htake⟩ | ⟨e, _, _, htake⟩ <;> rw [htake] at hidle ⊢
    · exact starts_of_quiet [.nodeCompleted node.id d.output d.attempts] rfl (by simp)
        hidle
    · exact starts_of_quiet [.nodeFailed e.nodeId e.message e.attempts] rfl (by simp)
        hidle
    · refine starts_of_quiet [.nodeFailed e.nodeId e.message e.attempts,
        .runFailed e.message] ?_ (by simp) hidle
      simp [record, finish, announce]
  have hidle := fun other => idle_take (c := c) r node other reply
  rw [answer_of_dispatching c hphase]
  exact htaken.trans hidle (starts_turns _ hidle)

end Run

namespace TimedRun

open Run (Starts NoSignal)

/-! ## Which runs are aborted -/

/-- The log has the start of a node at an instant from which its deadline lies past
the end of the clock. -/
def Overran (w : Workflow) (registry : Registry) (clock : Clock) (log : List (Nat × Event)) :
    Prop :=
  ∃ now node, (now, Event.nodeStarted node.id node.typeTag) ∈ log ∧
    w.node? node.id = some node ∧ registry.Overruns clock node now

/-- A dispatch is in flight just if the run has one, and the run is aborted just if
this dispatch has no answer, which is just if a logged start overruns the clock. -/
structure Clocked (c : RunContext) (registry : Registry) (clock : Clock) (t : TimedRun) : Prop where
  flies_iff : (∃ record, t.inFlight = some record) ↔ ∃ node, t.run.phase = .dispatching node
  stuck_iff : t.aborted = true ↔ ∃ record, t.inFlight = some record ∧ record.reply = none
  aborted_iff : t.aborted = true ↔ Overran c.workflow registry clock t.log

variable {c : RunContext} {registry : Registry} {clock : Clock}

/-- Updating shows the later state. -/
@[simp]
theorem run_update (registry : Registry) (clock : Clock) (t : TimedRun) (r : Run) :
    (t.update registry clock r).run = r := by
  unfold update
  dsimp only
  split <;> rfl

/-- Updating takes no time. -/
@[simp]
theorem nowMs_update (registry : Registry) (clock : Clock) (t : TimedRun) (r : Run) :
    (t.update registry clock r).nowMs = t.nowMs := by
  unfold update
  dsimp only
  split <;> rfl

/-- Showing the same state again changes nothing while a dispatch is in flight. -/
theorem update_self {t : TimedRun} {record : DispatchRecord} (hflight : t.inFlight = some record) :
    t.update registry clock t.run = t := by
  rcases t with ⟨run, nowMs, inFlight, log, calls, aborted⟩
  obtain rfl := hflight
  simp [update]

/-- Dating the new events logs the start of the node that is dispatched. -/
theorem overran_append (registry : Registry) (clock : Clock) {t : TimedRun} {r : Run}
    (hstarts : Starts t.run r)
    (hdeclared : ∀ node, r.phase = .dispatching node → c.workflow.node? node.id = some node) :
    Overran c.workflow registry clock
        (t.log ++ (r.events.drop t.run.events.length).map fun e => (t.nowMs, e)) ↔
      Overran c.workflow registry clock t.log ∨
        ∃ node, r.phase = .dispatching node ∧ registry.Overruns clock node t.nowMs := by
  rcases hstarts with ⟨more, hmore, hstarts⟩
  rw [hmore, List.drop_left]
  constructor
  · rintro ⟨now, node, hmem, hnode, hoverruns⟩
    rcases List.mem_append.mp hmem with hold | hnew
    · exact .inl ⟨now, node, hold, hnode, hoverruns⟩
    · obtain ⟨event, hevent, heq⟩ := List.mem_map.mp hnew
      obtain ⟨rfl, rfl⟩ := Prod.mk.inj heq
      obtain ⟨other, hphase, hid, _⟩ := (hstarts _ _).mp hevent
      have hother := hdeclared other hphase
      rw [hid, hnode, Option.some.injEq] at hother
      exact .inr ⟨node, hother ▸ hphase, hoverruns⟩
  · rintro (⟨now, node, hmem, hnode, hoverruns⟩ | ⟨node, hphase, hoverruns⟩)
    · exact ⟨now, node, List.mem_append_left _ hmem, hnode, hoverruns⟩
    · refine ⟨t.nowMs, node, List.mem_append_right _ (List.mem_map.mpr ⟨_, ?_, rfl⟩),
        hdeclared node hphase, hoverruns⟩
      exact (hstarts _ _).mpr ⟨node, hphase, rfl, rfl⟩

/-- A run with nothing in flight that is not aborted stays clocked when it is updated. -/
theorem clocked_update {t : TimedRun} {r : Run} (hflight : t.inFlight = none)
    (haborted : t.aborted = false) (hlog : ¬ Overran c.workflow registry clock t.log)
    (hstarts : Starts t.run r)
    (hdeclared : ∀ node, r.phase = .dispatching node → c.workflow.node? node.id = some node) :
    Clocked c registry clock (t.update registry clock r) := by
  have hdated := overran_append registry clock hstarts hdeclared
  rw [or_iff_right hlog] at hdated
  unfold update
  dsimp only
  split
  · rename_i node hphase _
    have hreply := registry.reply_dispatch_eq_none_iff clock node r.payload t.nowMs
    constructor
    · simp [hphase]
    · simp
    · rw [hdated, Option.isNone_iff_eq_none, hreply]
      simp [hphase]
  · rename_i hsplit
    have hidle : ∀ node, r.phase ≠ .dispatching node := fun node hphase =>
      hsplit node hphase hflight
    constructor
    · simp [hflight, hidle]
    · simp [hflight, haborted]
    · rw [hdated]
      simp [haborted, hidle]

/-- A run whose dispatch in flight has an answer is not aborted. -/
theorem Clocked.unstuck {t : TimedRun} (hclocked : Clocked c registry clock t)
    (hanswers : ∀ record, t.inFlight = some record → record.reply ≠ none) :
    t.aborted = false ∧ ¬ Overran c.workflow registry clock t.log := by
  rw [← hclocked.aborted_iff, Bool.not_eq_true, and_self, ← Bool.not_eq_true, hclocked.stuck_iff]
  rintro ⟨record, hflight, hreply⟩
  exact hanswers record hflight hreply

/-- Every step keeps a timed run clocked. -/
theorem clocked_tick {signals : Signal → Prop} {starts : List String} {input : Json}
    {t t' : TimedRun} (htick : Tick c registry clock signals t t')
    (hled : Led c registry clock signals (.initial starts input) t)
    (hclocked : Clocked c registry clock t) :
    Clocked c registry clock t' := by
  have hdeclared : ∀ node, t'.run.phase = .dispatching node →
      c.workflow.node? node.id = some node := by
    intro node hphase
    have hahead := (led_tick htick hled).leads.visits.2
    simp only [Run.Ahead, hphase] at hahead
    exact hahead.1
  cases htick with
  | elapse nowMs => exact ⟨hclocked.flies_iff, hclocked.stuck_iff, hclocked.aborted_iff⟩
  | @signal sent hsent =>
      refine ⟨?_, hclocked.stuck_iff, hclocked.aborted_iff⟩
      rw [(Run.foldl_signal sent t.run).1]
      exact hclocked.flies_iff
  | wake =>
      rw [run_update] at hdeclared
      by_cases hphase : ∃ node, t.run.phase = .dispatching node
      · obtain ⟨record, hflight⟩ := hclocked.flies_iff.mpr hphase
        obtain ⟨node, hphase⟩ := hphase
        rw [Run.wake_of_dispatching hphase, update_self hflight]
        exact hclocked
      · have hflight : t.inFlight = none := by
          rw [Option.eq_none_iff_forall_ne_some]
          exact fun record hflight => hphase (hclocked.flies_iff.mp ⟨record, hflight⟩)
        obtain ⟨haborted, hlog⟩ := hclocked.unstuck (by simp [hflight])
        exact clocked_update hflight haborted hlog
          (Run.starts_wake fun node hnode => hphase ⟨node, hnode⟩) hdeclared
  | @answer record reply hflight hreply =>
      rw [run_update] at hdeclared
      obtain ⟨node, hphase⟩ := hclocked.flies_iff.mp ⟨record, hflight⟩
      obtain ⟨haborted, hlog⟩ := hclocked.unstuck (by simp [hflight, hreply])
      exact clocked_update (t := { t with nowMs := record.endMs, inFlight := none }) rfl haborted
        hlog (Run.starts_answer hphase reply) hdeclared

/-- Steps keep a timed run clocked. -/
theorem clocked_ticks {signals : Signal → Prop} {starts : List String} {input : Json}
    {t : TimedRun} (hticks : Ticks c registry clock signals (.ofRun (.initial starts input)) t) :
    Clocked c registry clock t := by
  induction hticks with
  | refl =>
      constructor
      · simp [ofRun, Run.initial]
      · simp [ofRun]
      · simp [ofRun, Overran]
  | tail hticks hlast ih => exact clocked_tick hlast (led_ticks hticks) ih

/-- An aborted run never gets an outcome. -/
theorem Clocked.outcome?_of_aborted {t : TimedRun} (hclocked : Clocked c registry clock t)
    (haborted : t.aborted = true) : t.run.outcome? = none := by
  obtain ⟨record, hflight, _⟩ := hclocked.stuck_iff.mp haborted
  obtain ⟨node, hphase⟩ := hclocked.flies_iff.mp ⟨record, hflight⟩
  simp only [Run.outcome?, hphase]

/-- Time passes over an aborted run and leaves it as it is. -/
theorem Clocked.passUntil_of_aborted {t : TimedRun} (hclocked : Clocked c registry clock t)
    (haborted : t.aborted = true) (instant fuel : Nat) :
    t.passUntil c registry clock instant fuel = t := by
  obtain ⟨record, hflight, hreply⟩ := hclocked.stuck_iff.mp haborted
  cases fuel with
  | zero => rfl
  | succ fuel => simp only [passUntil, hflight, hreply]

/-- At every look at a timed run and at its end, it is aborted just if a logged start
overruns the clock, and then it has no outcome. -/
theorem aborted_iff_overran {w : Workflow} {defaults : RouterDefaults}
    {explicit : Option (List String)} {input : Option Json} {steps : List TimelineStep}
    {patienceMs : Nat} {record : TimedRecord}
    (hrun : w.runTimed registry clock defaults explicit input steps patienceMs = .ok record)
    {t : TimedRun} (ht : t = record.last ∨ t ∈ record.looks) :
    (t.aborted = true ↔ Overran w registry clock t.log) ∧
      (t.aborted = true → t.run.outcome? = none) := by
  rcases ticks_runTimed hrun with ⟨starts, _, hticks⟩
  have hclocked := clocked_ticks (hticks t ht)
  exact ⟨hclocked.aborted_iff, hclocked.outcome?_of_aborted⟩

/-! ## Which runs end -/

/-- Without signals, a run is aborted or over after some time: every dispatch that
answers leaves one more result, and there are no more results than nodes. -/
theorem ends_passUntil {starts : List String} {input : Json} (fuel : Nat) {t : TimedRun}
    (hticks : Ticks c registry clock NoSignal (.ofRun (.initial starts input)) t)
    (hbegun : t.run.phase ≠ .pending)
    (hfuel : c.workflow.nodes.length < t.run.results.length + fuel) :
    ∃ bound, ∀ instant, bound ≤ instant →
      (t.passUntil c registry clock instant fuel).aborted = true ∨
        (t.passUntil c registry clock instant fuel).run.isOver = true := by
  have hclocked := clocked_ticks hticks
  have hleads := (led_ticks hticks).leads
  induction fuel generalizing t with
  | zero =>
      have hle := hleads.visits.1.length_results_le
      omega
  | succ fuel ih =>
      cases hflight : t.inFlight with
      | none =>
          have hover : t.run.isOver = true := by
            rcases hleads.over_or_dispatching hbegun with hover | hphase
            · exact hover
            · obtain ⟨record, hrecord⟩ := hclocked.flies_iff.mpr hphase
              simp [hflight] at hrecord
          exact ⟨0, fun instant _ => .inr (by simpa only [passUntil, hflight] using hover)⟩
      | some record =>
          cases hreply : record.reply with
          | none =>
              have haborted := hclocked.stuck_iff.mpr ⟨record, hflight, hreply⟩
              refine ⟨0, fun instant _ => .inl ?_⟩
              rwa [hclocked.passUntil_of_aborted haborted]
          | some reply =>
              obtain ⟨node, hphase⟩ := hclocked.flies_iff.mp ⟨record, hflight⟩
              have hlater := hticks.tail (.answer hflight hreply)
              have hlonger := Run.length_results_answer (c := c) hphase reply
              have hbegun' := Run.begun_answer (c := c) hphase reply
              obtain ⟨bound, hbound⟩ := ih hlater (by rwa [run_update])
                (by rw [run_update]; omega) (clocked_ticks hlater) (led_ticks hlater).leads
              refine ⟨max record.endMs bound, fun instant hle => ?_⟩
              have hends : record.endMs ≤ instant := by omega
              simp only [passUntil, hflight, hreply, if_pos hends]
              exact hbound instant (by omega)

/-- Without signals, a run that has begun is aborted or over after some time. -/
theorem ends_advanceTo {starts : List String} {input : Json} {t : TimedRun}
    (hticks : Ticks c registry clock NoSignal (.ofRun (.initial starts input)) t)
    (hbegun : t.run.phase ≠ .pending) :
    ∃ bound, ∀ instant, bound ≤ instant →
      (t.advanceTo c registry clock instant).aborted = true ∨
        (t.advanceTo c registry clock instant).run.isOver = true :=
  ends_passUntil (c.workflow.nodes.length + 1) hticks hbegun (by omega)

end TimedRun

namespace Workflow

open TimedRun (Overran)

variable (w : Workflow) (registry : Registry) (clock : Clock) (defaults : RouterDefaults)
  (explicit : Option (List String)) (input : Option Json)

/-- Without a timeline, a run begins and time passes. -/
theorem runTimed_nil {starts : List String} (hstarts : w.startNodes explicit = .ok starts)
    (patienceMs : Nat) :
    w.runTimed registry clock defaults explicit input [] patienceMs =
      .ok ⟨((TimedRun.ofRun (.initial starts (input.getD defaultInput))).begin ⟨w, defaults⟩
        registry clock).advanceTo ⟨w, defaults⟩ registry clock patienceMs, []⟩ := by
  unfold runTimed
  rw [hstarts]
  simp only [bind, Except.bind, pure, Except.pure, TimedRun.play, TimedRun.ofRun, Run.initial,
    TimedRun.begin, TimedRun.nowMs_update, Nat.zero_add]

/-- A run without start nodes is refused.  Any other run is aborted just if it starts
a node at an instant from which the node's deadline lies past the end of the clock,
and has an outcome after some time if it is not aborted. -/
theorem runTimed_ends_unless_overran :
    match w.startNodes explicit with
    | .error fault =>
        ∀ patienceMs, w.runTimed registry clock defaults explicit input [] patienceMs = .error fault
    | .ok _ =>
        ∃ bound, ∀ patienceMs, bound ≤ patienceMs → ∃ record,
          w.runTimed registry clock defaults explicit input [] patienceMs = .ok record ∧
            (record.last.aborted = true ↔ Overran w registry clock record.last.log) ∧
            (record.last.aborted = false ↔ ∃ out, record.last.run.outcome? = some out) := by
  cases hstarts : w.startNodes explicit with
  | error fault =>
      intro patienceMs
      unfold runTimed
      rw [hstarts]
      rfl
  | ok starts =>
      let c : RunContext := ⟨w, defaults⟩
      let first := TimedRun.ofRun (.initial starts (input.getD defaultInput))
      have hbegin :
          TimedRun.Ticks c registry clock Run.NoSignal first (first.begin c registry clock) :=
        .single .wake
      have hbegun : (first.begin c registry clock).run.phase ≠ .pending := by
        unfold TimedRun.begin
        rw [TimedRun.run_update]
        exact Run.begun_wake_initial _ _
      obtain ⟨bound, hbound⟩ := TimedRun.ends_advanceTo hbegin hbegun
      refine ⟨bound, fun patienceMs hpatience =>
        ⟨_, runTimed_nil w registry clock defaults explicit input hstarts patienceMs, ?_⟩⟩
      have hclocked := TimedRun.clocked_ticks
        (hbegin.trans (TimedRun.ticks_advanceTo c registry clock Run.NoSignal patienceMs _))
      refine ⟨hclocked.aborted_iff, fun hfalse => ?_, fun ⟨out, hout⟩ => ?_⟩
      · rcases hbound patienceMs hpatience with haborted | hover
        · exact absurd (hfalse.symm.trans haborted) (by simp)
        · exact Run.exists_outcome? hover
      · by_contra haborted
        rw [Bool.not_eq_false] at haborted
        rw [hclocked.outcome?_of_aborted haborted] at hout
        contradiction

/-- A node may take as long as an unsigned word of seconds. -/
def endlessDocument : Json :=
  .object [
    ("name", .string "w"),
    ("nodes", .array [.object [
      ("id", .string "a"),
      ("options", .object [("scheduleToCloseTimeout", .ofUInt64 0xFFFFFFFFFFFFFFFF)]),
      ("type", .string "twiddle.noOp")]])]

/-- The node of the document. -/
def endlessNode : Node :=
  { id := "a", typeTag := "twiddle.noOp"
    options := { scheduleToCloseTimeout := 0xFFFFFFFFFFFFFFFF } }

/-- The workflow of the document. -/
def endless : Workflow :=
  ofSound { name := "w", nodes := [endlessNode] }
    ((Definition.violations_eq_nil_iff _).2 (by decide))

/-- The document is accepted, and under every clock its run is aborted at its beginning. -/
theorem endlessDocument_aborts :
    ofDocument endlessDocument = .ok endless ∧
      ∀ (clock : Clock) (patienceMs : Nat), ∃ record,
        endless.runTimed .builtin clock {} none none [] patienceMs = .ok record ∧
          record.last.aborted = true ∧ record.last.run.outcome? = none := by
  have hread : Document.read endlessDocument = .ok endless.definition := by rfl
  have hstarts : endless.startNodes none = .ok ["a"] := by
    simp [endless, endlessNode, startNodes, ofSound, Graph.ofParts, Graph.startsOf]
  have hnode : endless.node? "a" = some endlessNode :=
    (node?_eq_some_iff endless _ _).2 ⟨List.mem_cons_self, rfl⟩
  refine ⟨?_, fun clock patienceMs => ⟨_, runTimed_nil _ _ _ _ _ _ hstarts patienceMs, ?_⟩⟩
  · simp only [ofDocument, hread]
    exact ofDefinition_eq_ok _
  · have hlate : clock.limit * millisPerSecond ≤
        0 + endlessNode.options.scheduleToCloseTimeout.toNat * millisPerSecond := by
      rw [Nat.zero_add]
      exact Nat.mul_le_mul_right _ (Nat.le_trans clock.limit_le (by decide))
    have hoverruns : Registry.builtin.Overruns clock endlessNode 0 :=
      ⟨by decide, by decide, hlate⟩
    let c : RunContext := ⟨endless, {}⟩
    let first := TimedRun.ofRun (.initial ["a"] defaultInput)
    let begun := first.begin c .builtin clock
    have haborted : begun.aborted = true := by
      have hreply :=
        (Registry.builtin.reply_dispatch_eq_none_iff clock endlessNode defaultInput 0).mpr hoverruns
      simp [begun, first, c, TimedRun.begin, TimedRun.update, TimedRun.ofRun,
        Run.wake_initial (c := c) [] hnode rfl defaultInput, hreply]
    have hbegin : TimedRun.Ticks c .builtin clock Run.NoSignal first begun := .single .wake
    have hclocked := TimedRun.clocked_ticks hbegin
    have hlast : (begun.advanceTo c .builtin clock patienceMs).aborted = true ∧
        (begun.advanceTo c .builtin clock patienceMs).run.outcome? = none := by
      unfold TimedRun.advanceTo
      rw [hclocked.passUntil_of_aborted haborted]
      exact ⟨haborted, hclocked.outcome?_of_aborted haborted⟩
    exact hlast

end Workflow

end FlowGraph
