import FlowGraph.Proofs.Activity.Attempts

/-!
# Dispatches answer

A dispatch makes its attempts one after another and answers with the output of the
last one or with an error.  All that it computes on the way is bounded, its backoff by
the longest wait and its sleeps by the longest sleep, except its own deadline: this one
it computes first, and if it lies past the end of the clock there is no answer.

Main results:

- Theorem `Registry.row_dispatch`: a dispatch that begins is a row of calls.
- Theorem `Registry.reply_dispatch_eq_none_iff`: a dispatch does not answer just if its
  deadline lies past the end of the clock.
-/

namespace FlowGraph

/-- The record answers, and its errors carry the given id. -/
def DispatchRecord.Answers (record : DispatchRecord) (id : String) : Prop :=
  ∃ reply, record.reply = some reply ∧ ∀ e, reply = .error e → e.nodeId = id

/-- The deadline of a dispatch that begins now lies past the end of the clock. -/
structure Registry.Overruns (registry : Registry) (clock : Clock) (node : Node) (now : Nat) :
    Prop where
  handled : registry.contains node.typeTag = true
  limited : node.options.scheduleToCloseTimeout.toNat ≠ 0
  late : clock.limit * millisPerSecond ≤
    now + node.options.scheduleToCloseTimeout.toNat * millisPerSecond

namespace Dispatch.Job

/-- The job of a dispatch that begins now. -/
def start (node : Node) (handler : Handler) (payload : Json) (now : Nat) : Job :=
  let limit := node.options.scheduleToCloseTimeout.toNat
  ⟨node, handler, payload, if limit = 0 then none else some (now + limit * millisPerSecond)⟩

/-- A dispatch has a deadline just if its whole time is limited. -/
theorem deadline_start_eq_some_iff {node : Node} {handler : Handler} {payload : Json}
    {now deadline : Nat} :
    (start node handler payload now).deadline = some deadline ↔
      node.options.scheduleToCloseTimeout.toNat ≠ 0 ∧
        deadline = now + node.options.scheduleToCloseTimeout.toNat * millisPerSecond := by
  simp only [start]
  split
  next hzero => simp [hzero]
  next hpositive => simp [hpositive, eq_comm]

/-- A dispatch begins before its deadline. -/
theorem isOpen_start (node : Node) (handler : Handler) (payload : Json) (now : Nat) :
    (start node handler payload now).IsOpen now := by
  intro deadline hdeadline
  obtain ⟨hpositive, rfl⟩ := deadline_start_eq_some_iff.mp hdeadline
  unfold millisPerSecond
  omega

/-- The error of a dispatch carries the id of the dispatched node and the number of the
last call. -/
theorem Ending.error_eq {job : Job} {last : Call} {e : ActivityError} {endMs : Nat}
    (hend : job.Ending last (.error e) endMs) :
    e.nodeId = job.node.id ∧ e.attempts = last.attempt := by
  cases hend <;> exact ⟨rfl, rfl⟩

/-- A row of calls answers, and an error carries the id of the dispatched node. -/
theorem Row.answers {job : Job} {call : Call} {record : DispatchRecord}
    (hrow : job.Row call record) : record.Answers job.node.id := by
  obtain ⟨last, reply, -, -, hreply, hend⟩ := hrow.ending
  refine ⟨reply, hreply, fun e he => ?_⟩
  subst he
  exact hend.error_eq.1

end Dispatch.Job

namespace Registry

variable (registry : Registry) (clock : Clock) (node : Node) (payload : Json) (now : Nat)

/-- A dispatch without a handler ends at once. -/
theorem dispatch_of_handler?_eq_none (hnone : registry.handler? node.typeTag = none) :
    registry.dispatch clock node payload now =
      ⟨some (.error ⟨node.id, .unknownType node.typeTag, 0⟩), now, []⟩ := by
  simp only [dispatch, hnone]

/-- A dispatch with a handler makes its attempts if its deadline lies within the clock. -/
theorem dispatch_of_handler?_eq_some {handler : Handler}
    (hhandler : registry.handler? node.typeTag = some handler)
    (hfits : ¬ registry.Overruns clock node now) :
    registry.dispatch clock node payload now =
      (Dispatch.Job.start node handler payload now).attemptFrom
        (node.options.retry.attempts - 1) 1 now := by
  have hclock : ¬ (node.options.scheduleToCloseTimeout.toNat ≠ 0 ∧
      clock.limit * millisPerSecond ≤
        now + node.options.scheduleToCloseTimeout.toNat * millisPerSecond) :=
    fun hover => hfits ⟨by simp [contains, hhandler], hover.1, hover.2⟩
  simp only [dispatch, hhandler]
  rw [if_neg hclock]
  rfl

/-- A dispatch that begins is a row of calls. -/
theorem row_dispatch {handler : Handler} (hhandler : registry.handler? node.typeTag = some handler)
    (hfits : ¬ registry.Overruns clock node now) :
    let job := Dispatch.Job.start node handler payload now
    job.Row ⟨job.input 1, now⟩ (registry.dispatch clock node payload now) := by
  have hpos := node.options.retry.attempts_pos
  have hleft : 1 + (node.options.retry.attempts - 1) = node.options.retry.attempts := by omega
  rw [dispatch_of_handler?_eq_some registry clock node payload now hhandler hfits]
  exact Dispatch.Job.row_attemptFrom _ rfl (Dispatch.Job.isOpen_start node handler payload now)
    hleft

/-- A dispatch answers unless its deadline lies past the end of the clock, and an error
carries the id of the dispatched node. -/
theorem dispatch_cases :
    registry.Overruns clock node now ∧ (registry.dispatch clock node payload now).reply = none ∨
      ¬ registry.Overruns clock node now ∧
        (registry.dispatch clock node payload now).Answers node.id := by
  by_cases hfits : registry.Overruns clock node now
  · obtain ⟨handler, hhandler⟩ := Option.isSome_iff_exists.mp hfits.handled
    refine .inl ⟨hfits, ?_⟩
    simp only [dispatch, hhandler]
    rw [if_pos ⟨hfits.limited, hfits.late⟩]
  · refine .inr ⟨hfits, ?_⟩
    cases hhandler : registry.handler? node.typeTag with
    | none =>
        rw [dispatch_of_handler?_eq_none registry clock node payload now hhandler]
        exact ⟨_, rfl, fun e he => by rw [← Except.error.inj he]⟩
    | some handler => exact (registry.row_dispatch clock node payload now hhandler hfits).answers

/-- A dispatch does not answer just if its deadline lies past the end of the clock. -/
theorem reply_dispatch_eq_none_iff :
    (registry.dispatch clock node payload now).reply = none ↔ registry.Overruns clock node now := by
  rcases dispatch_cases registry clock node payload now with
    ⟨hoverruns, hreply⟩ | ⟨hfits, reply, hreply, _⟩
  · exact iff_of_true hreply hoverruns
  · exact iff_of_false (by simp [hreply]) hfits

end Registry

end FlowGraph
