import FlowGraph.Activity.Backoff
import FlowGraph.Activity.Registry

/-!
# Dispatch

A dispatch repeats a node's handler under its retry policy.  Start-to-close bounds every attempt,
schedule-to-close the whole dispatch with its waits; a zero limit is none.  Time is counted in
milliseconds and every wait ends on a whole one.

Current gaps:

- Every handler answers after some time, however long; one that never answers is left out.
- The clock and the timer belong to the host: of a clock only its end is known here, and of the
  timer only its longest sleep.
- What a dispatch writes to the log is left out.
-/

namespace FlowGraph

/-- Milliseconds in a second. -/
def millisPerSecond : Nat := 1000

/-- Nanoseconds in a millisecond. -/
def nanosPerMilli : Nat := 1000000

/-- A clock, by the seconds that it can still count when a run begins.  It counts signed 64-bit
seconds. -/
structure Clock where
  limit : Nat
  limit_le : limit ≤ 0x8000000000000000

/-- The clock of a host that has been going for some seconds. -/
def Clock.upFor (seconds : Nat) : Clock := ⟨0x8000000000000000 - seconds, Nat.sub_le _ _⟩

/-- The milliseconds of the longest sleep of the timer: thirty years.  No dispatch asks for this
limit; the timer cuts longer sleeps short by itself. -/
def longestSleep : Nat := 86400 * 365 * 30 * millisPerSecond

/-- The milliseconds the timer sleeps for some nanoseconds: a whole number, rounded up, and at most
that of the longest sleep. -/
def sleepMillis (nanos : Nat) : Nat :=
  min ((nanos + (nanosPerMilli - 1)) / nanosPerMilli) longestSleep

/-- Why a dispatch gave up. -/
inductive DispatchFault where
  | unknownType (typeTag : String)
  | invalidParameters (fault : ParameterFault)
  | failed (text : String)
  | startToClose (seconds : Nat)
  | scheduleToClose (seconds : Nat)

/-- The four kinds of dispatch faults. -/
inductive FaultKind where
  | failed
  | timeout
  | unknownNodeType
  | invalidParameters
deriving DecidableEq

namespace DispatchFault

/-- The kind of a fault. -/
def kind : DispatchFault → FaultKind
  | .unknownType _ => .unknownNodeType
  | .invalidParameters _ => .invalidParameters
  | .failed _ => .failed
  | .startToClose _ => .timeout
  | .scheduleToClose _ => .timeout

/-- The fault in words. -/
def message : DispatchFault → String
  | .unknownType typeTag => "no handler registered for node type '" ++ typeTag ++ "'"
  | .invalidParameters fault => fault.message
  | .failed text => text
  | .startToClose seconds => "start-to-close timeout of " ++ toString seconds ++ "s elapsed"
  | .scheduleToClose seconds => "schedule-to-close timeout of " ++ toString seconds ++ "s elapsed"

end DispatchFault

/-- A dispatch that gave up, with the attempts made. -/
structure ActivityError where
  nodeId : String
  fault : DispatchFault
  attempts : Nat

/-- The error in words. -/
def ActivityError.message (e : ActivityError) : String :=
  "activity '" ++ e.nodeId ++ "' failed after " ++ toString e.attempts ++ " attempt(s): " ++
    e.fault.message

/-- A dispatch that succeeded, with the attempts made. -/
structure Dispatched where
  output : Json
  attempts : Nat

/-- What a dispatch answers. -/
abbrev Reply := Except ActivityError Dispatched

/-- A call of a handler: what it is given, and when. -/
structure Call where
  input : ActivityInput
  atMs : Nat

namespace Call

/-- The node that a call is for. -/
def nodeId (call : Call) : String := call.input.nodeId

/-- The number of the attempt that a call makes. -/
def attempt (call : Call) : Nat := call.input.attempt

end Call

/-- How a dispatch went: its answer, or nothing when its deadline lies past the end of the clock,
the instant it ended, and the calls made. -/
structure DispatchRecord where
  reply : Option Reply
  endMs : Nat
  calls : List Call

namespace Dispatch

/-- What one attempt comes to. -/
inductive Attempt where
  | succeeded (output : Json)
  | rejected (fault : ParameterFault)
  | failed (text : String)
  | timedOut

/-- An attempt that ended in time. -/
def Attempt.ofResult : Except HandlerFault Json → Attempt
  | .ok output => .succeeded output
  | .error (.invalidParameters fault) => .rejected fault
  | .error (.failed text) => .failed text

/-- What stays the same over the attempts of one dispatch. -/
structure Job where
  node : Node
  handler : Handler
  payload : Json
  deadline : Option Nat

namespace Job

/-- The dispatch fails at an instant. -/
def fail (job : Job) (fault : DispatchFault) (attempts endMs : Nat) : DispatchRecord :=
  ⟨some (.error ⟨job.node.id, fault, attempts⟩), endMs, []⟩

/-- The fault of a passed deadline. -/
def expired (job : Job) : DispatchFault :=
  .scheduleToClose job.node.options.scheduleToCloseTimeout.toNat

/-- The milliseconds an attempt begun now may take: its own limit and the time to the deadline. -/
def budget (job : Job) (now : Nat) : Option Nat :=
  let limit := job.node.options.startToCloseTimeout
  let own := if limit = 0 then none else some (limit.toNat * millisPerSecond)
  let left := job.deadline.map fun d => d - now
  match own, left with
  | some own, some left => some (min own left)
  | own, left => own.or left

/-- What the attempt of a number is given. -/
def input (job : Job) (number : Nat) : ActivityInput :=
  { ActivityInput.ofNode job.node job.payload with attempt := number }

/-- Make one attempt; it ends with its answer, or when its time is up. -/
def attempt (job : Job) (input : ActivityInput) (now : Nat) : Attempt × Nat :=
  let response := job.handler input
  match job.budget now with
  | some allowed =>
    if response.afterMs ≤ allowed then (.ofResult response.result, now + response.afterMs)
    else (.timedOut, now + allowed)
  | none => (.ofResult response.result, now + response.afterMs)

/-- Whether an instant is at or past the deadline. -/
def isPast (job : Job) (instant : Nat) : Bool := job.deadline.any fun d => decide (d ≤ instant)

/-- The instant of the next attempt after a failed one, or the deadline when the whole wait would
reach it. -/
def resume (job : Job) (number now : Nat) : Except Nat Nat :=
  let wait := job.node.options.retry.backoff number
  match job.deadline with
  | some deadline =>
    if deadline * nanosPerMilli ≤ now * nanosPerMilli + wait then .error deadline
    else .ok (now + sleepMillis wait)
  | none => .ok (now + sleepMillis wait)

/-- Make the attempts from `number` on, of which `remaining` are left after this one. -/
def attemptFrom (job : Job) (remaining number now : Nat) : DispatchRecord :=
  if job.isPast now then job.fail job.expired (number - 1) now
  else
    let input := job.input number
    let (outcome, done) := job.attempt input now
    let retry (fault : DispatchFault) : DispatchRecord :=
      match remaining with
      | 0 => job.fail fault number done
      | remaining + 1 =>
        match job.resume number done with
        | .error deadline => job.fail job.expired number deadline
        | .ok next => job.attemptFrom remaining (number + 1) next
    let rest : DispatchRecord :=
      match outcome with
      | .succeeded output => ⟨some (.ok ⟨output, number⟩), done, []⟩
      | .rejected fault => job.fail (.invalidParameters fault) number done
      | .failed text => retry (.failed text)
      | .timedOut =>
        if job.isPast done then job.fail job.expired number done
        else retry (.startToClose job.node.options.startToCloseTimeout.toNat)
    { rest with calls := ⟨input, now⟩ :: rest.calls }

end Job

end Dispatch

/-- Dispatch a node with a payload under a clock, beginning now. -/
def Registry.dispatch (registry : Registry) (clock : Clock) (node : Node) (payload : Json)
    (now : Nat) : DispatchRecord :=
  match registry.handler? node.typeTag with
  | none => ⟨some (.error ⟨node.id, .unknownType node.typeTag, 0⟩), now, []⟩
  | some handler =>
    let limit := node.options.scheduleToCloseTimeout.toNat
    let deadline := now + limit * millisPerSecond
    if limit ≠ 0 ∧ clock.limit * millisPerSecond ≤ deadline then ⟨none, now, []⟩
    else
      let job : Dispatch.Job :=
        ⟨node, handler, payload, if limit = 0 then none else some deadline⟩
      job.attemptFrom (node.options.retry.attempts - 1) 1 now

end FlowGraph
