import FlowGraph.Activity.Dispatch

/-!
# Statuses and node results

A run is pending, running, waiting at a node boundary, or over.  Every node it passes leaves one
result: completed with an output, failed with an error, or skipped.

Current gaps:

- A result does not say when its node began and ended; reports take the instants from the log of a
  timed run.
-/

namespace FlowGraph

/-- Where a run stands. -/
inductive RunStatus where
  | pending
  | running
  | waiting
  | completed
  | failed
  | cancelled
deriving DecidableEq

namespace RunStatus

/-- The name of a status. -/
def name : RunStatus → String
  | .pending => "pending"
  | .running => "running"
  | .waiting => "waiting"
  | .completed => "completed"
  | .failed => "failed"
  | .cancelled => "cancelled"

/-- Every status. -/
def all : List RunStatus := [.pending, .running, .waiting, .completed, .failed, .cancelled]

/-- Read a status by name. -/
def read : ReadAs RunStatus := .choice (all.map fun s => (s.name, s))

/-- Whether a run in this status is over. -/
def isTerminal : RunStatus → Bool
  | .completed | .failed | .cancelled => true
  | _ => false

end RunStatus

/-- What became of a node. -/
inductive NodeStatus where
  | completed
  | failed
  | skipped
deriving DecidableEq

/-- The name of a node status. -/
def NodeStatus.name : NodeStatus → String
  | .completed => "completed"
  | .failed => "failed"
  | .skipped => "skipped"

/-- What a node left behind. -/
structure NodeResult where
  nodeId : String
  nodeName : String
  nodeType : String
  status : NodeStatus
  output : Option Json := none
  error : Option String := none
  retryCount : Nat := 0

namespace NodeResult

/-- A disabled node that was passed over. -/
def skipped (node : Node) : NodeResult :=
  ⟨node.id, node.displayName, node.typeTag, .skipped, none, none, 0⟩

/-- A dispatched node and its answer; retries are the attempts after the first. -/
def ofReply (node : Node) : Reply → NodeResult
  | .ok d =>
    ⟨node.id, node.displayName, node.typeTag, .completed, some d.output, none, d.attempts - 1⟩
  | .error e =>
    ⟨node.id, node.displayName, node.typeTag, .failed, none, some e.message, e.attempts - 1⟩

/-- The members of a written result, with those that date it. -/
def members (r : NodeResult) (dates : List (String × Json)) : List (String × Json) :=
  [("node_id", .string r.nodeId), ("node_name", .string r.nodeName),
   ("node_type", .string r.nodeType), ("status", .string r.status.name)] ++
  dates ++
  (r.output.toList.map fun output => ("output", output)) ++
  (r.error.toList.map fun error => ("error", .string error)) ++
  [("retry_count", .ofUInt64 (UInt64.ofNat r.retryCount))]

end NodeResult

end FlowGraph
