import FlowGraph.Workflow.Basic
import FlowGraph.Workflow.Routing

/-!
# Traversal order

Nodes run in the order of a queue, each at most once: an id is admitted when it leaves the queue
and has not been executed, and its successors join the end of the queue.  A dry run walks a
workflow in this order with given outputs in place of work.
-/

namespace FlowGraph

/-- A queue of waiting ids and the set of executed ones. -/
structure Traversal where
  queue : List String
  executed : Std.HashSet String

namespace Traversal

/-- A traversal that has executed nothing. -/
def start (ids : List String) : Traversal := ⟨ids, ∅⟩

/-- Whether an id has been executed. -/
def isExecuted (t : Traversal) (id : String) : Bool := t.executed.contains id

/-- The first id that is not executed, and the queue after it. -/
def firstWaiting (executed : Std.HashSet String) : List String → Option (String × List String)
  | [] => none
  | id :: rest => if executed.contains id then firstWaiting executed rest else some (id, rest)

/-- Take the next id that has not been executed; executed ones before it are dropped. -/
def next (t : Traversal) : Option String × Traversal :=
  match firstWaiting t.executed t.queue with
  | some (id, rest) => (some id, { t with queue := rest })
  | none => (none, { t with queue := [] })

/-- Record an id as executed and let its successors wait. -/
def complete (t : Traversal) (id : String) (successors : List String) : Traversal :=
  ⟨t.queue ++ successors, t.executed.insert id⟩

/-- The ids that follow a node: all of a disabled one's targets, otherwise those its output
selects. -/
def successors (w : Workflow) (defaults : RouterDefaults) (node : Node) (output : Option Json) :
    List String :=
  if node.disabled then w.graph.fanOut node.id else w.graph.nextHops defaults node output

/-- Walk on from a traversal, at most `fuel` ids; `visited` lists the ids so far, last first.
An id without a node is passed over. -/
def walk {m : Type → Type} [Monad m] (w : Workflow) (defaults : RouterDefaults)
    (outputOf : Node → m Json) (fuel : Nat) (t : Traversal) (visited : List String) :
    m (List String) :=
  match fuel with
  | 0 => pure visited.reverse
  | fuel + 1 =>
    match t.next with
    | (none, _) => pure visited.reverse
    | (some id, t) =>
      match w.node? id with
      | none => walk w defaults outputOf fuel t visited
      | some node => do
        let output ← if node.disabled then pure none else some <$> outputOf node
        walk w defaults outputOf fuel (t.complete id (successors w defaults node output))
          (id :: visited)

/-- The ids a workflow visits from the given ones, in order.  Every id taken from the queue is a
start or the target of a connection, which bounds the walk. -/
def dryRun {m : Type → Type} [Monad m] (w : Workflow) (starts : List String)
    (defaults : RouterDefaults) (outputOf : Node → m Json) : m (List String) :=
  walk w defaults outputOf (starts.length + w.connections.length) (start starts) []

end Traversal

end FlowGraph
