import FlowGraph.Program.Literal
import FlowGraph.Program.Project

/-!
# Tasks of an Airflow graph

Every node becomes one task with an id of its own.  A task names the tasks whose payload it reads
by their ids, the tasks that follow it by their places in the graph, and, for a router, the task
ids that each of its labels leads to.
-/

namespace FlowGraph.Program.Airflow

/-- The labels of a router with the task ids they lead to, and the label without an output. -/
structure BranchTable where
  entries : List (String × List String)
  default : String

/-- A task. -/
structure Task where
  /-- The place of the task in the graph. -/
  index : Nat
  /-- The id under which the task runs. -/
  id : String
  node : Node
  /-- The function the task calls, if it does not pass its payload on by itself. -/
  function : Option String
  /-- Ids of the tasks whose payload it reads. -/
  sources : List String
  /-- Places of the tasks that follow it. -/
  followers : List Nat
  branches : Option BranchTable

/-- The task ids of a plan by node id. -/
def taskIds (p : Plan) : List (String × String) := assign taskId (p.steps.map fun s => s.node.id)

/-- The task ids of some nodes, each once. -/
def taskIdsOf (ids : List (String × String)) (nodes : List String) : List String :=
  nodes.eraseDups.filterMap fun node => ids.lookup node

/-- The place of a node's task. -/
def taskIndex? (p : Plan) (node : String) : Option Nat :=
  p.steps.findIdx? fun s => s.node.id = node

/-- The branch table of a router. -/
def branchTable (ids : List (String × String)) : Successors → Option BranchTable
  | .fanOut _ => none
  | .routed branches default =>
    some ⟨branches.map fun branch => (branch.label, taskIdsOf ids branch.targets), default⟩

/-- The task of a step. -/
def taskOf (w : Workflow) (p : Plan) (ids : List (String × String)) (step : Step) (index : Nat) :
    Task where
  index := index
  id := (ids.lookup step.node.id).getD ""
  node := step.node
  function :=
    match step.role with
    | .activity function => some function
    | _ => none
  sources := taskIdsOf ids (w.graph.sources step.node.id)
  followers := step.successors.targets.eraseDups.filterMap (taskIndex? p)
  branches := branchTable ids step.successors

/-- The tasks of a plan, in node order. -/
def tasksOf (w : Workflow) (p : Plan) : List Task :=
  let ids := taskIds p
  p.steps.zipIdx.map fun (step, index) => taskOf w p ids step index

namespace Task

/-- The variable of the task at a place. -/
def nameAt (index : Nat) : String := "task_" ++ toString index

/-- The variable of the task. -/
def varName (t : Task) : String := nameAt t.index

/-- What a running task knows of its node. -/
def nodeRecord (t : Task) : Json :=
  .ofPairs
    [("id", .string t.node.id), ("name", .string t.node.displayName),
     ("type", .string t.node.typeTag), ("parameters", .object t.node.parameters),
     ("continue_on_fail", .bool t.node.options.continueOnFail)]

/-- How often the task is tried again. -/
def retries (t : Task) : Nat := t.node.options.retry.attempts - 1

/-- Whether the delay between tries grows. -/
def growsDelay (t : Task) : Bool :=
  t.node.options.retry.enabled &&
    decide (Decimal.Binary64.one.value < t.node.options.retry.backoffCoefficient.value)

end Task

namespace BranchTable

/-- The table as a record. -/
def toJson (b : BranchTable) : Json :=
  .ofPairs (b.entries.map fun (label, ids) => (label, .array (ids.map .string)))

end BranchTable

end FlowGraph.Program.Airflow
