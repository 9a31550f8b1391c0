import FlowGraph.Proofs.Workflow.Walk
import FlowGraph.Run.Timeline
import Mathlib.Logic.Relation

/-!
# Steps of a run

A run is moved from outside: a signal arrives, the loop is woken, or the
dispatch in flight is answered.  Between two moves it is suspended.  Woken or
answered, the loop takes steps of its own, and this module lists all that a
single step can do, so that a property of every run is proved step by step.

Main results:

- Inductive `Step`: everything a run can do in one step.
- Theorem `settle_suspended`: the loop always reaches a suspension or its end.
- Theorem `Leads.steps`: every state that moves lead to is reached by steps and
  is suspended or over.
- Theorem `Leads.induction`: what every step keeps holds of every state of a run.
-/

namespace FlowGraph

/-- Which answers a dispatcher may give to a node and a payload. -/
abbrev Dispatcher := Node → Json → Reply → Prop

/-- A dispatcher whose answer depends on the node and the payload only. -/
def Dispatcher.ofFunction (answer : Node → Json → Reply) : Dispatcher :=
  fun node payload reply => reply = answer node payload

namespace Run

section

variable (c : RunContext) (dispatcher : Dispatcher) (signals : Signal → Prop)

/-! ## Steps and moves -/

/-- What a run can do in one step, under a dispatcher and the signals that may
arrive.  A signal finds the run suspended; every other step is the loop's. -/
inductive Step : Run → Run → Prop where
  | signal {r : Run} {s : Signal} : r.phase ≠ .between → signals s → Step r (r.signal s)
  | begin {r : Run} : r.phase = .pending →
      Step r { r.announce (.runStarted c.workflow.name) with phase := .between }
  | cancel {r : Run} : (r.phase = .between ∨ ∃ id, r.phase = .held id) → r.cancelled = true →
      Step r (r.finish .cancelled)
  | complete {r : Run} {rest : Traversal} : r.phase = .between → r.cancelled = false →
      r.traversal.next = (none, rest) → Step r ({ r with traversal := rest }.finish .completed)
  | hold {r : Run} {id : String} {rest : Traversal} : r.phase = .between →
      r.cancelled = false → r.paused = true → r.traversal.next = (some id, rest) →
      Step r { { r with traversal := rest }.announce (.runPaused id) with phase := .held id }
  | reach {r : Run} {id : String} {rest : Traversal} : r.phase = .between →
      r.cancelled = false → r.paused = false → r.traversal.next = (some id, rest) →
      Step r ({ r with traversal := rest }.visit c id)
  | resume {r : Run} {id : String} : r.phase = .held id → r.cancelled = false →
      r.paused = false → Step r ((r.announce .runResumed).visit c id)
  | answer {r : Run} {node : Node} {reply : Reply} : r.phase = .dispatching node →
      dispatcher node r.payload reply → Step r (r.take c node reply)

/-- Some steps, or none. -/
abbrev Steps : Run → Run → Prop := Relation.ReflTransGen (Step c dispatcher signals)

/-- What can happen to a suspended run: a signal arrives, the loop is woken, or
the dispatch in flight is answered. -/
inductive Move : Run → Run → Prop where
  | signal {r : Run} {s : Signal} : signals s → Move r (r.signal s)
  | wake {r : Run} : Move r (r.wake c)
  | answer {r : Run} {node : Node} {reply : Reply} : r.phase = .dispatching node →
      dispatcher node r.payload reply → Move r (r.answer c reply)

/-- Some moves, or none. -/
abbrev Leads : Run → Run → Prop := Relation.ReflTransGen (Move c dispatcher signals)

/-- Any signal may arrive. -/
abbrev AnySignal : Signal → Prop := fun _ => True

/-- No signal arrives. -/
abbrev NoSignal : Signal → Prop := fun _ => False

/-! ## What visiting and taking an answer can do -/

/-- A signal leaves the loop where it is. -/
@[simp]
theorem phase_signal (r : Run) (s : Signal) : (r.signal s).phase = r.phase := by
  cases s <;> rfl

/-- Signals that arrive together change the flags and nothing else. -/
theorem foldl_signal_eq (sent : List Signal) (r : Run) :
    ∃ paused cancelled,
      sent.foldl signal r = { r with paused := paused, cancelled := cancelled } := by
  induction sent generalizing r with
  | nil => exact ⟨r.paused, r.cancelled, rfl⟩
  | cons s rest ih =>
      rcases ih (r.signal s) with ⟨paused, cancelled, heq⟩
      refine ⟨paused, cancelled, ?_⟩
      rw [List.foldl_cons, heq]
      cases s <;> rfl

variable {c}

/-- Visiting an id passes over one without a node, skips a disabled node, and
dispatches any other. -/
theorem visit_cases (r : Run) (id : String) :
    (c.workflow.node? id = none ∧ r.visit c id = { r with phase := .between }) ∨
    (∃ node, c.workflow.node? id = some node ∧ node.disabled = true ∧
      r.visit c id = r.record (.skipped node) (.nodeSkipped node.id)
        (c.workflow.graph.fanOut node.id)) ∨
    (∃ node, c.workflow.node? id = some node ∧ node.disabled = false ∧
      r.visit c id =
        { r.announce (.nodeStarted node.id node.typeTag) with phase := .dispatching node }) := by
  cases hnode : c.workflow.node? id with
  | none => exact .inl ⟨rfl, by simp only [visit, hnode]⟩
  | some node =>
      cases hdisabled : node.disabled with
      | true =>
          exact .inr (.inl ⟨node, rfl, hdisabled, by simp only [visit, hnode, hdisabled, if_true]⟩)
      | false =>
          refine .inr (.inr ⟨node, rfl, hdisabled, ?_⟩)
          simp only [visit, hnode, hdisabled, Bool.false_eq_true, if_false]

/-- An answer is an output to go on with, a failure to go on after, or a failure
that ends the run. -/
theorem take_cases (r : Run) (node : Node) (reply : Reply) :
    (∃ d, reply = .ok d ∧ r.take c node reply =
      { r with payload := d.output }.record (.ofReply node (.ok d))
        (.nodeCompleted node.id d.output d.attempts)
        (c.workflow.graph.nextHops c.defaults node (some d.output))) ∨
    (∃ e, reply = .error e ∧ node.options.continueOnFail = true ∧ r.take c node reply =
      r.record (.ofReply node (.error e)) (.nodeFailed e.nodeId e.message e.attempts)
        (c.workflow.graph.nextHops c.defaults node none)) ∨
    (∃ e, reply = .error e ∧ node.options.continueOnFail = false ∧ r.take c node reply =
      (r.record (.ofReply node (.error e)) (.nodeFailed e.nodeId e.message e.attempts) []).finish
        (.failed e)) := by
  cases reply with
  | ok d => exact .inl ⟨d, rfl, rfl⟩
  | error e =>
      cases hcontinues : node.options.continueOnFail with
      | true => exact .inr (.inl ⟨e, rfl, rfl, by simp only [take, hcontinues, if_true]⟩)
      | false =>
          refine .inr (.inr ⟨e, rfl, rfl, ?_⟩)
          simp only [take, hcontinues, Bool.false_eq_true, if_false]

/-- A turn ends a cancelled run, ends a run without a next id, holds a paused run
before the next id, and visits the next id otherwise. -/
theorem turn_cases (r : Run) :
    (r.cancelled = true ∧ r.turn c = r.finish .cancelled) ∨
    (r.cancelled = false ∧ ∃ rest, r.traversal.next = (none, rest) ∧
      r.turn c = { r with traversal := rest }.finish .completed) ∨
    (r.cancelled = false ∧ r.paused = true ∧ ∃ id rest, r.traversal.next = (some id, rest) ∧
      r.turn c =
        { { r with traversal := rest }.announce (.runPaused id) with phase := .held id }) ∨
    (r.cancelled = false ∧ r.paused = false ∧ ∃ id rest, r.traversal.next = (some id, rest) ∧
      r.turn c = { r with traversal := rest }.visit c id) := by
  unfold turn
  by_cases hcancelled : r.cancelled = true
  · rw [if_pos hcancelled]
    exact .inl ⟨hcancelled, rfl⟩
  · rw [if_neg hcancelled]
    rw [Bool.not_eq_true] at hcancelled
    refine .inr ?_
    rcases hnext : r.traversal.next with ⟨_ | id, rest⟩
    · exact .inl ⟨hcancelled, rest, rfl, rfl⟩
    · by_cases hpaused : r.paused = true
      · exact .inr (.inl ⟨hcancelled, hpaused, id, rest, rfl, if_pos hpaused⟩)
      · refine .inr (.inr ⟨hcancelled, ?_, id, rest, rfl, if_neg hpaused⟩)
        rwa [Bool.not_eq_true] at hpaused

/-! ## The loop's own steps -/

variable (c)

/-- A turn is one step. -/
theorem step_turn {r : Run} (hphase : r.phase = .between) :
    Step c dispatcher signals r (r.turn c) := by
  rcases turn_cases (c := c) r with ⟨hcancelled, hturn⟩ | ⟨hcancelled, rest, hnext, hturn⟩ |
    ⟨hcancelled, hpaused, id, rest, hnext, hturn⟩ |
    ⟨hcancelled, hpaused, id, rest, hnext, hturn⟩ <;> rw [hturn]
  · exact .cancel (.inl hphase) hcancelled
  · exact .complete hphase hcancelled hnext
  · exact .hold hphase hcancelled hpaused hnext
  · exact .reach hphase hcancelled hpaused hnext

/-- A turn that leaves the loop at a boundary leaves less to take. -/
theorem remaining_turn_lt {r : Run} (hbetween : (r.turn c).phase = .between) :
    (r.turn c).traversal.remaining c.workflow.connections <
      r.traversal.remaining c.workflow.connections := by
  rcases turn_cases (c := c) r with ⟨_, hturn⟩ | ⟨_, rest, _, hturn⟩ |
    ⟨_, _, id, rest, _, hturn⟩ | ⟨_, _, id, rest, hnext, hturn⟩ <;> rw [hturn] at hbetween ⊢
  · simp [finish] at hbetween
  · simp [finish] at hbetween
  · simp at hbetween
  · rcases visit_cases (c := c) { r with traversal := rest } id with
      ⟨_, hvisit⟩ | ⟨node, hnode, hdisabled, hvisit⟩ | ⟨node, _, _, hvisit⟩ <;>
      rw [hvisit] at hbetween ⊢
    · exact Traversal.remaining_next_lt c.workflow.connections hnext
    · have hlt := Traversal.remaining_complete_next_lt c.defaults none hnext hnode
      rw [Traversal.successors_of_disabled _ _ hdisabled] at hlt
      simpa [record, announce, NodeResult.skipped, Workflow.id_of_node? hnode] using hlt
    · simp at hbetween

/-- With a bound left, turns are taken at a boundary. -/
theorem turns_succ {r : Run} (fuel : Nat) (hphase : r.phase = .between) :
    r.turns c (fuel + 1) = (r.turn c).turns c fuel := by
  simp only [turns, hphase]

/-- No turns are taken away from a boundary. -/
theorem turns_of_suspended {r : Run} (fuel : Nat) (hphase : r.phase ≠ .between) :
    r.turns c fuel = r := by
  unfold turns
  split
  · contradiction
  · rfl

/-- Turns are steps. -/
theorem steps_turns (fuel : Nat) (r : Run) : Steps c dispatcher signals r (r.turns c fuel) := by
  induction fuel generalizing r with
  | zero =>
      simp only [turns]
      exact .refl
  | succ fuel ih =>
      by_cases hphase : r.phase = .between
      · rw [turns_succ c fuel hphase]
        exact .head (step_turn c dispatcher signals hphase) (ih _)
      · rw [turns_of_suspended c _ hphase]

/-- Enough turns reach a suspension or the end. -/
theorem turns_suspended (fuel : Nat) (r : Run)
    (hfuel : r.traversal.remaining c.workflow.connections < fuel) :
    (r.turns c fuel).phase ≠ .between := by
  induction fuel generalizing r with
  | zero => omega
  | succ fuel ih =>
      by_cases hphase : r.phase = .between
      · rw [turns_succ c fuel hphase]
        by_cases hbetween : (r.turn c).phase = .between
        · have hlt := remaining_turn_lt c hbetween
          exact ih _ (by omega)
        · rwa [turns_of_suspended c _ hbetween]
      · rwa [turns_of_suspended c _ hphase]

/-- The loop goes on by steps. -/
theorem steps_settle (r : Run) : Steps c dispatcher signals r (r.settle c) :=
  steps_turns c dispatcher signals _ r

/-- The loop always reaches a suspension or its end. -/
theorem settle_suspended (r : Run) : (r.settle c).phase ≠ .between := by
  apply turns_suspended
  have hle : (c.workflow.connections.filter
      fun connection => !r.traversal.executed.contains connection.source).length ≤
        c.workflow.connections.length :=
    List.length_filter_le _ _
  unfold Traversal.remaining
  omega

/-- A turn that leaves the boundary is all that the loop does. -/
theorem settle_of_turn {r : Run} (hphase : r.phase = .between)
    (hsuspended : (r.turn c).phase ≠ .between) : r.settle c = r.turn c := by
  rw [settle, turns_succ c _ hphase, turns_of_suspended c _ hsuspended]

/-- A cancelled run that is at a boundary ends there. -/
theorem settle_of_cancelled {r : Run} (hphase : r.phase = .between)
    (hcancelled : r.cancelled = true) : r.settle c = r.finish .cancelled := by
  have hturn : r.turn c = r.finish .cancelled := by
    simp [turn, hcancelled]
  rw [settle_of_turn c hphase (by simp [hturn, finish]), hturn]

/-- A run without an id to take completes, paused or not. -/
theorem settle_of_drained {r : Run} {rest : Traversal} (hphase : r.phase = .between)
    (hcancelled : r.cancelled = false) (hnext : r.traversal.next = (none, rest)) :
    r.settle c = { r with traversal := rest }.finish .completed := by
  have hturn : r.turn c = { r with traversal := rest }.finish .completed := by
    simp [turn, hcancelled, hnext]
  rw [settle_of_turn c hphase (by simp [hturn, finish]), hturn]

/-- A paused run with an id to take is held before it. -/
theorem settle_of_paused {r : Run} {id : String} {rest : Traversal} (hphase : r.phase = .between)
    (hcancelled : r.cancelled = false) (hpaused : r.paused = true)
    (hnext : r.traversal.next = (some id, rest)) :
    r.settle c =
      { { r with traversal := rest }.announce (.runPaused id) with phase := .held id } := by
  have hturn : r.turn c =
      { { r with traversal := rest }.announce (.runPaused id) with phase := .held id } := by
    simp [turn, hcancelled, hpaused, hnext]
  rw [settle_of_turn c hphase (by simp [hturn]), hturn]

/-- A run with an enabled node to take dispatches it. -/
theorem settle_of_enabled {r : Run} {node : Node} {rest : Traversal} (hphase : r.phase = .between)
    (hcancelled : r.cancelled = false) (hpaused : r.paused = false)
    (hnext : r.traversal.next = (some node.id, rest))
    (hnode : c.workflow.node? node.id = some node) (henabled : node.disabled = false) :
    r.settle c = { { r with traversal := rest }.announce (.nodeStarted node.id node.typeTag) with
      phase := .dispatching node } := by
  have hturn : r.turn c =
      { { r with traversal := rest }.announce (.nodeStarted node.id node.typeTag) with
        phase := .dispatching node } := by
    simp [turn, hcancelled, hpaused, hnext, visit, hnode, henabled]
  rw [settle_of_turn c hphase (by simp [hturn]), hturn]

/-- The answer of the dispatch in flight is taken, and the loop goes on. -/
theorem answer_of_dispatching {r : Run} {node : Node} (hphase : r.phase = .dispatching node)
    (reply : Reply) : r.answer c reply = (r.take c node reply).settle c := by
  simp only [Run.answer, hphase]

/-! ## Moves are steps -/

variable {c dispatcher signals}

/-- Waking a suspended run takes it by steps to a suspension or its end. -/
theorem steps_wake {r : Run} (hphase : r.phase ≠ .between) :
    Steps c dispatcher signals r (r.wake c) ∧ (r.wake c).phase ≠ .between := by
  unfold wake
  cases hcurrent : r.phase with
  | pending =>
      exact ⟨.head (.begin hcurrent) (steps_settle c dispatcher signals _), settle_suspended c _⟩
  | between => contradiction
  | dispatching node => exact ⟨.refl, hphase⟩
  | ended ending => exact ⟨.refl, hphase⟩
  | held id =>
      dsimp only
      cases hcancelled : r.cancelled with
      | true =>
          rw [if_pos rfl]
          exact ⟨.single (.cancel (.inr ⟨id, hcurrent⟩) hcancelled), by simp [finish]⟩
      | false =>
          rw [if_neg Bool.false_ne_true]
          cases hpaused : r.paused with
          | true => exact ⟨.refl, hphase⟩
          | false =>
              rw [if_neg Bool.false_ne_true]
              exact ⟨.head (.resume hcurrent hcancelled hpaused)
                (steps_settle c dispatcher signals _), settle_suspended c _⟩

/-- A move takes a suspended run by steps to a suspension or its end. -/
theorem Move.steps {r r' : Run} (hmove : Move c dispatcher signals r r')
    (hphase : r.phase ≠ .between) :
    Steps c dispatcher signals r r' ∧ r'.phase ≠ .between := by
  cases hmove with
  | @signal s hsignal =>
      refine ⟨.single (.signal hphase hsignal), ?_⟩
      cases s <;> exact hphase
  | wake => exact steps_wake hphase
  | @answer node reply hdispatching hreply =>
      rw [answer_of_dispatching c hdispatching]
      exact ⟨.head (.answer hdispatching hreply) (steps_settle c dispatcher signals _),
        settle_suspended c _⟩

/-- Moves take a suspended run by steps to a suspension or its end. -/
theorem Leads.steps {r r' : Run} (hleads : Leads c dispatcher signals r r')
    (hphase : r.phase ≠ .between) :
    Steps c dispatcher signals r r' ∧ r'.phase ≠ .between := by
  induction hleads with
  | refl => exact ⟨.refl, hphase⟩
  | tail _ hmove ih =>
      have hlast := hmove.steps ih.2
      exact ⟨ih.1.trans hlast.1, hlast.2⟩

/-- What happens under fewer signals can happen under more. -/
theorem Leads.mono {signals' : Signal → Prop} (hsub : ∀ s, signals s → signals' s) {r r' : Run}
    (hleads : Leads c dispatcher signals r r') : Leads c dispatcher signals' r r' := by
  refine Relation.ReflTransGen.mono ?_ r r' hleads
  intro before after hmove
  cases hmove with
  | signal hsignal => exact .signal (hsub _ hsignal)
  | wake => exact .wake
  | answer hphase hreply => exact .answer hphase hreply

/-- A property of a new run that every step keeps holds wherever moves lead. -/
theorem Leads.induction {motive : Run → Prop} {starts : List String} {input : Json} {r : Run}
    (hleads : Leads c dispatcher signals (.initial starts input) r)
    (hinitial : motive (.initial starts input))
    (hstep : ∀ r r', Step c dispatcher signals r r' → motive r → motive r') : motive r := by
  have hsteps := (hleads.steps (by simp [initial])).1
  clear hleads
  induction hsteps with
  | refl => exact hinitial
  | tail _ hlast ih => exact hstep _ _ hlast ih

/-! ## The beginning and the end of a run -/

/-- A run that has begun does not go back to its beginning. -/
theorem begun_step {r r' : Run}
    (hstep : Step c dispatcher signals r r') (hbegun : r.phase ≠ .pending) :
    r'.phase ≠ .pending := by
  have hvisit (r : Run) (id : String) : (r.visit c id).phase ≠ .pending := by
    rcases visit_cases (c := c) r id with
      ⟨_, hvisit⟩ | ⟨node, _, _, hvisit⟩ | ⟨node, _, _, hvisit⟩ <;> rw [hvisit] <;> simp [record]
  cases hstep with
  | @signal s _ _ => cases s <;> exact hbegun
  | begin _ => simp
  | cancel _ _ => simp [finish]
  | complete _ _ _ => simp [finish]
  | hold _ _ _ _ => simp
  | reach _ _ _ _ => exact hvisit _ _
  | resume _ _ _ => exact hvisit _ _
  | @answer node reply _ _ =>
      rcases take_cases (c := c) r node reply with
        ⟨d, _, htake⟩ | ⟨e, _, _, htake⟩ | ⟨e, _, _, htake⟩ <;> rw [htake] <;>
        simp [record, finish]

/-- Steps do not go back to the beginning. -/
theorem begun_steps {r r' : Run} (hsteps : Steps c dispatcher signals r r')
    (hbegun : r.phase ≠ .pending) : r'.phase ≠ .pending := by
  induction hsteps with
  | refl => exact hbegun
  | tail _ hlast ih => exact begun_step hlast ih

/-- A run whose dispatch is answered has begun. -/
theorem begun_answer {r : Run} {node : Node} (hphase : r.phase = .dispatching node)
    (reply : Reply) : (r.answer c reply).phase ≠ .pending := by
  have hanswer : Step c (fun _ _ _ => True) NoSignal r (r.take c node reply) :=
    .answer hphase trivial
  rw [answer_of_dispatching c hphase]
  exact begun_steps (.head hanswer (steps_settle c _ _ _)) (by simp [hphase])

/-- A new run that is woken has begun. -/
theorem begun_wake_initial (starts : List String) (input : Json) :
    ((initial starts input).wake c).phase ≠ .pending := by
  have hwake : Steps c (fun _ _ _ => True) NoSignal
      { (initial starts input).announce (.runStarted c.workflow.name) with phase := .between }
      ((initial starts input).wake c) :=
    steps_settle c _ _ _
  exact begun_steps hwake (by simp)

/-- A run that has not begun is a new one, apart from the flags. -/
theorem Leads.eq_initial_of_pending {starts : List String} {input : Json} {r : Run}
    (hleads : Leads c dispatcher signals (.initial starts input) r)
    (hpending : r.phase = .pending) :
    ∃ paused cancelled, r = ⟨.pending, .start starts, input, [], [], paused, cancelled⟩ := by
  have hall : r.phase = .pending → ∃ paused cancelled,
      r = ⟨.pending, .start starts, input, [], [], paused, cancelled⟩ := by
    apply hleads.induction
    · intro _
      exact ⟨false, false, rfl⟩
    · intro r r' hstep hbefore hafter
      by_cases hphase : r.phase = .pending
      · rcases hbefore hphase with ⟨paused, cancelled, rfl⟩
        cases hstep with
        | @signal s _ _ => cases s <;> exact ⟨_, _, rfl⟩
        | begin _ => simp at hafter
        | cancel _ _ => simp [finish] at hafter
        | complete hbetween _ _ => simp at hbetween
        | hold hbetween _ _ _ => simp at hbetween
        | reach hbetween _ _ _ => simp at hbetween
        | resume hheld _ _ => simp at hheld
        | answer hdispatching _ => simp at hdispatching
      · exact absurd hafter (begun_step hstep hphase)
  exact hall hpending

/-- A new run begins by dispatching its first start, if that is an enabled node. -/
theorem wake_initial (rest : List String) {id : String} {node : Node}
    (hnode : c.workflow.node? id = some node) (henabled : node.disabled = false) (input : Json) :
    (initial (id :: rest) input).wake c =
      ⟨.dispatching node, ⟨rest, ∅⟩, input, [],
        [.runStarted c.workflow.name, .nodeStarted node.id node.typeTag], false, false⟩ := by
  obtain rfl := Workflow.id_of_node? hnode
  have hnext : (Traversal.start (node.id :: rest)).next = (some node.id, ⟨rest, ∅⟩) :=
    Traversal.next_cons_of_not_mem (by simp)
  exact settle_of_enabled c (r := { (initial (node.id :: rest) input).announce
    (.runStarted c.workflow.name) with phase := .between }) rfl rfl rfl hnext hnode henabled

/-- An answer that fails a node which does not allow it ends the run. -/
theorem answer_failed {r : Run} {node : Node} (hphase : r.phase = .dispatching node)
    (hstops : node.options.continueOnFail = false) (e : ActivityError) :
    r.answer c (.error e) =
      (r.record (.ofReply node (.error e)) (.nodeFailed e.nodeId e.message e.attempts) []).finish
        (.failed e) := by
  have htake : r.take c node (.error e) =
      (r.record (.ofReply node (.error e)) (.nodeFailed e.nodeId e.message e.attempts) []).finish
        (.failed e) := by
    simp only [take, hstops, Bool.false_eq_true, if_false]
  have hsuspended : (r.take c node (.error e)).phase ≠ .between := by
    rw [htake]
    simp [finish]
  rw [answer_of_dispatching c hphase, settle, turns_of_suspended c _ hsuspended, htake]

/-- A run whose first start fails and does not allow it ends with this failure. -/
theorem outcome?_of_failed_start (rest : List String) {id : String} {node : Node}
    (hnode : c.workflow.node? id = some node) (henabled : node.disabled = false)
    (hstops : node.options.continueOnFail = false) (input : Json) (e : ActivityError) :
    ((initial (id :: rest) input).wake c).phase = .dispatching node ∧
      (((initial (id :: rest) input).wake c).answer c (.error e)).outcome? =
        some ⟨.failed, [.ofReply node (.error e)], input, some e.message⟩ := by
  have hphase : ((initial (id :: rest) input).wake c).phase = .dispatching node := by
    rw [wake_initial rest hnode henabled]
  refine ⟨hphase, ?_⟩
  rw [answer_failed hphase hstops, wake_initial rest hnode henabled]
  rfl

/-- Only a run that has completed shows that it has. -/
theorem phase_of_status_completed {r : Run} (hstatus : r.snapshot.status = .completed) :
    r.phase = .ended .completed := by
  unfold snapshot Phase.status at hstatus
  dsimp only at hstatus
  split at hstatus <;> first | contradiction | assumption

/-- A run that is over has an outcome. -/
theorem exists_outcome? {r : Run} (hover : r.isOver = true) : ∃ out, r.outcome? = some out := by
  unfold isOver at hover
  split at hover
  · rename_i ending hphase
    simp only [outcome?, hphase]
    exact ⟨_, rfl⟩
  · contradiction

/-- A run with an outcome has ended, and the outcome shows its results. -/
theorem outcome?_eq_some {r : Run} {out : Outcome} (hout : r.outcome? = some out) :
    ∃ ending, r.phase = .ended ending ∧ out.status = r.phase.status ∧ out.results = r.results := by
  unfold outcome? at hout
  split at hout
  · rename_i ending hphase
    rw [Option.some.injEq] at hout
    rw [← hout]
    exact ⟨ending, hphase, rfl, rfl⟩
  · simp at hout

end

end Run

end FlowGraph
