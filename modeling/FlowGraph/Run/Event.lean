import FlowGraph.Json.Record

/-!
# Events of a run

A run announces every transition of its own and of its nodes.  A written event carries its name
under `event` and the id of its run.
-/

namespace FlowGraph

/-- A transition of a run or of one of its nodes. -/
inductive Event where
  | runStarted (workflowName : String)
  /-- The run is held before a node. -/
  | runPaused (nodeId : String)
  | runResumed
  | runCancelled
  | runCompleted
  | runFailed (error : String)
  | nodeStarted (nodeId nodeType : String)
  | nodeCompleted (nodeId : String) (output : Json) (attempts : Nat)
  | nodeFailed (nodeId error : String) (attempts : Nat)
  | nodeSkipped (nodeId : String)

namespace Event

/-- The name of an event. -/
def name : Event → String
  | .runStarted _ => "RUN_STARTED"
  | .runPaused _ => "RUN_PAUSED"
  | .runResumed => "RUN_RESUMED"
  | .runCancelled => "RUN_CANCELLED"
  | .runCompleted => "RUN_COMPLETED"
  | .runFailed _ => "RUN_FAILED"
  | .nodeStarted _ _ => "NODE_STARTED"
  | .nodeCompleted _ _ _ => "NODE_COMPLETED"
  | .nodeFailed _ _ _ => "NODE_FAILED"
  | .nodeSkipped _ => "NODE_SKIPPED"

/-- The members an event has besides its name and its run. -/
def details : Event → List (String × Json)
  | .runStarted workflowName => [("workflow_name", .string workflowName)]
  | .runPaused nodeId => [("node_id", .string nodeId)]
  | .runResumed => []
  | .runCancelled => []
  | .runCompleted => []
  | .runFailed error => [("error", .string error)]
  | .nodeStarted nodeId nodeType => [("node_id", .string nodeId), ("node_type", .string nodeType)]
  | .nodeCompleted nodeId output attempts =>
    [("node_id", .string nodeId), ("output", output),
     ("attempts", .ofUInt64 (UInt64.ofNat attempts))]
  | .nodeFailed nodeId error attempts =>
    [("node_id", .string nodeId), ("error", .string error),
     ("attempts", .ofUInt64 (UInt64.ofNat attempts))]
  | .nodeSkipped nodeId => [("node_id", .string nodeId)]

end Event

/-- An event of a named run. -/
structure EventRecord where
  runId : String
  event : Event

namespace EventRecord

/-- Write an event. -/
def toJson (r : EventRecord) : Json :=
  .ofPairs ([("event", .string r.event.name), ("execution_id", .string r.runId)] ++
    r.event.details)

/-- Read the members of an event of a given name; an array lists them after the run. -/
def readNamed (name : String) (content : Json) : Except ReadFault EventRecord := do
  let record (names : List String) := ReadAs.record ("execution_id" :: names) content
  let text (ms : Members) (key : String) := ms.required key .string
  let attempts (ms : Members) := UInt32.toNat <$> ms.required "attempts" .uint32
  let done (ms : Members) (event : Event) : Except ReadFault EventRecord := do
    return ⟨← text ms "execution_id", event⟩
  match name with
  | "RUN_STARTED" => do
    let ms ← record ["workflow_name"]
    done ms (.runStarted (← text ms "workflow_name"))
  | "RUN_PAUSED" => do
    let ms ← record ["node_id"]
    done ms (.runPaused (← text ms "node_id"))
  | "RUN_RESUMED" => do done (← record []) .runResumed
  | "RUN_CANCELLED" => do done (← record []) .runCancelled
  | "RUN_COMPLETED" => do done (← record []) .runCompleted
  | "RUN_FAILED" => do
    let ms ← record ["error"]
    done ms (.runFailed (← text ms "error"))
  | "NODE_STARTED" => do
    let ms ← record ["node_id", "node_type"]
    done ms (.nodeStarted (← text ms "node_id") (← text ms "node_type"))
  | "NODE_COMPLETED" => do
    let ms ← record ["node_id", "output", "attempts"]
    done ms (.nodeCompleted (← text ms "node_id") (← ms.required "output" .any) (← attempts ms))
  | "NODE_FAILED" => do
    let ms ← record ["node_id", "error", "attempts"]
    done ms (.nodeFailed (← text ms "node_id") (← text ms "error") (← attempts ms))
  | "NODE_SKIPPED" => do
    let ms ← record ["node_id"]
    done ms (.nodeSkipped (← text ms "node_id"))
  | _ => .error (.mismatch "a known variant")

/-- Read an event: an object with its name among its members, or an array with its name first. -/
def read : ReadAs EventRecord
  | .object members => do
    readNamed (← Members.required members "event" .string) (.object members)
  | .array (.string name :: rest) => readNamed name (.array rest)
  | _ => .error (.mismatch "a tagged event")

end EventRecord

end FlowGraph
