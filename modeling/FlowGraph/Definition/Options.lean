import FlowGraph.Decimal.Binary64

/-!
# Execution options

Options bound how long a node's work may take and how often it is tried.  Durations are whole
seconds; a zero schedule-to-close, heartbeat or maximum interval stands for none.
-/

namespace FlowGraph

/-- How failed attempts are repeated. -/
structure RetryPolicy where
  enabled : Bool := true
  maximumAttempts : UInt32 := 3
  initialInterval : UInt64 := 1
  backoffCoefficient : Decimal.Binary64 := .two
  maximumInterval : UInt64 := 0
deriving DecidableEq

namespace RetryPolicy

/-- A policy of exactly one attempt. -/
def once : RetryPolicy := { enabled := false }

/-- The number of attempts allowed, at least one. -/
def attempts (p : RetryPolicy) : Nat := if p.enabled then max 1 p.maximumAttempts.toNat else 1

theorem attempts_pos (p : RetryPolicy) : 0 < p.attempts := by
  unfold attempts
  split <;> omega

end RetryPolicy

/-- Time limits and retries of one node. -/
structure ActivityOptions where
  startToCloseTimeout : UInt64 := 300
  scheduleToCloseTimeout : UInt64 := 0
  heartbeatTimeout : UInt64 := 0
  retry : RetryPolicy := {}
  continueOnFail : Bool := false
deriving DecidableEq

end FlowGraph
