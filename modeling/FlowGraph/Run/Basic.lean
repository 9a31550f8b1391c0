import FlowGraph.Run.Event
import FlowGraph.Run.Status
import FlowGraph.Workflow.Traversal

/-!
# Runs

A run takes the nodes of a workflow in traversal order, one at a time.  It is suspended before it
begins, while a node is dispatched, and while it is held at a node boundary by a pause; signals
arrive in between and are heeded at the next boundary.  A signal only sets a flag, and the loop
goes on when it is woken or when a dispatch answers.

Main results:

- Theorem `signal_snapshot`: a signal alone changes nothing that can be observed.

Current gaps:

- A run is one state, and a signal reaches it at once: the threads and locks between the loop and
  those who steer it are left out.
- What observers do with an event is left out, and none of them can hold up the run.
-/

namespace FlowGraph

/-- How a run ended. -/
inductive Ending where
  | completed
  | cancelled
  | failed (error : ActivityError)

/-- What a run is doing. -/
inductive Phase where
  /-- The loop has not begun. -/
  | pending
  /-- The loop is at a node boundary and goes on by itself. -/
  | between
  /-- A node is being dispatched. -/
  | dispatching (node : Node)
  /-- The loop is held by a pause before a node. -/
  | held (id : String)
  /-- The loop has returned. -/
  | ended (ending : Ending)

namespace Phase

/-- The status shown in a phase. -/
def status : Phase → RunStatus
  | .pending => .pending
  | .between => .running
  | .dispatching _ => .running
  | .held _ => .waiting
  | .ended .completed => .completed
  | .ended .cancelled => .cancelled
  | .ended (.failed _) => .failed

/-- The node dispatched or waited for. -/
def current : Phase → Option String
  | .dispatching node => some node.id
  | .held id => some id
  | _ => none

end Phase

/-- A request to a run. -/
inductive Signal where
  | pause
  | resume
  | cancel
deriving DecidableEq

/-- A run between two of its steps. -/
structure Run where
  phase : Phase
  traversal : Traversal
  payload : Json
  results : List NodeResult
  events : List Event
  paused : Bool
  cancelled : Bool

/-- What can be observed of a run. -/
structure Snapshot where
  status : RunStatus
  current : Option String
  payload : Json
  results : List NodeResult

/-- What stays the same during a run. -/
structure RunContext where
  workflow : Workflow
  defaults : RouterDefaults

namespace Run

/-- A run that has not begun. -/
def initial (starts : List String) (payload : Json) : Run :=
  ⟨.pending, .start starts, payload, [], [], false, false⟩

/-- What can be observed of the run. -/
def snapshot (r : Run) : Snapshot := ⟨r.phase.status, r.phase.current, r.payload, r.results⟩

/-- Whether the loop has returned. -/
def isOver (r : Run) : Bool :=
  match r.phase with
  | .ended _ => true
  | _ => false

/-- Take a signal. -/
def signal (r : Run) : Signal → Run
  | .pause => { r with paused := true }
  | .resume => { r with paused := false }
  | .cancel => { r with cancelled := true }

/-- Announce an event. -/
def announce (r : Run) (event : Event) : Run := { r with events := r.events ++ [event] }

/-- Return from the loop. -/
def finish (r : Run) (ending : Ending) : Run :=
  let event := match ending with
    | .completed => Event.runCompleted
    | .cancelled => .runCancelled
    | .failed error => .runFailed error.message
  { r.announce event with phase := .ended ending }

/-- Keep a node's result and go on with its successors. -/
def record (r : Run) (result : NodeResult) (event : Event) (successors : List String) : Run :=
  { r.announce event with
    phase := .between
    results := r.results ++ [result]
    traversal := r.traversal.complete result.nodeId successors }

/-- Visit a node: pass over a disabled one, dispatch any other. -/
def visit (c : RunContext) (r : Run) (id : String) : Run :=
  match c.workflow.node? id with
  | none => { r with phase := .between }
  | some node =>
    if node.disabled then
      r.record (.skipped node) (.nodeSkipped node.id) (c.workflow.graph.fanOut node.id)
    else
      { r.announce (.nodeStarted node.id node.typeTag) with phase := .dispatching node }

/-- One turn at a node boundary: a cancelled run ends, and otherwise the next node is visited, or
waited for while the run is paused. -/
def turn (c : RunContext) (r : Run) : Run :=
  if r.cancelled then r.finish .cancelled
  else
    match r.traversal.next with
    | (none, rest) => { r with traversal := rest }.finish .completed
    | (some id, rest) =>
      let r := { r with traversal := rest }
      if r.paused then { r.announce (.runPaused id) with phase := .held id }
      else r.visit c id

/-- Take turns while the loop is at a boundary, at most `fuel` of them. -/
def turns (c : RunContext) (fuel : Nat) (r : Run) : Run :=
  match fuel, r.phase with
  | fuel + 1, .between => turns c fuel (r.turn c)
  | _, _ => r

/-- Go on until the run is suspended or over.  Every turn but the last takes an id from the queue,
which holds the ids waiting now and the targets still to come. -/
def settle (c : RunContext) (r : Run) : Run :=
  r.turns c (r.traversal.queue.length + c.workflow.connections.length + 1)

/-- Let the loop act on what has changed: begin, or leave a pause by resumption or by
cancellation. -/
def wake (c : RunContext) (r : Run) : Run :=
  match r.phase with
  | .pending =>
    ({ r.announce (.runStarted c.workflow.name) with phase := .between }).settle c
  | .held id =>
    if r.cancelled then r.finish .cancelled
    else if r.paused then r
    else ((r.announce .runResumed).visit c id).settle c
  | _ => r

/-- The run after its dispatch answered, at the node boundary or over. -/
def take (c : RunContext) (r : Run) (node : Node) (reply : Reply) : Run :=
  let result := NodeResult.ofReply node reply
  match reply with
  | .ok d =>
    { r with payload := d.output }.record result (.nodeCompleted node.id d.output d.attempts)
      (c.workflow.graph.nextHops c.defaults node (some d.output))
  | .error e =>
    let event := Event.nodeFailed e.nodeId e.message e.attempts
    if node.options.continueOnFail then
      r.record result event (c.workflow.graph.nextHops c.defaults node none)
    else (r.record result event []).finish (.failed e)

/-- Hand the answer of the dispatch in flight to the loop. -/
def answer (c : RunContext) (r : Run) (reply : Reply) : Run :=
  match r.phase with
  | .dispatching node => (r.take c node reply).settle c
  | _ => r

/-- A signal alone changes nothing that can be observed. -/
theorem signal_snapshot (r : Run) (s : Signal) : (r.signal s).snapshot = r.snapshot := by
  cases s <;> rfl

end Run

end FlowGraph
