import FlowGraph.Program.Identifier
import FlowGraph.Workflow.Traversal

/-!
# Execution plans

A plan fixes for every node its role and the rule for its successors, and names one function for
every type of dispatched node.  Replaying a plan visits nodes in the order of a run.

Current gaps:

- A plan names functions and knows nothing of their bodies, which all come from one fixed library.
-/

namespace FlowGraph.Program

/-- What a generated program does with a node. -/
inductive Role where
  /-- Passes the payload on by itself. -/
  | trigger
  /-- Is recorded as skipped. -/
  | disabled
  /-- Calls a function. -/
  | activity (function : String)
deriving DecidableEq

/-- A label of a router and the targets it leads to. -/
structure Branch where
  label : String
  targets : List String
deriving DecidableEq

/-- Which nodes follow a node. -/
inductive Successors where
  /-- Every target. -/
  | fanOut (targets : List String)
  /-- The targets of the label in the output, or of the default label. -/
  | routed (branches : List Branch) (default : String)
deriving DecidableEq

namespace Successors

/-- The successors after an output, or after a failure. -/
def select (s : Successors) (output : Option Json) : List String :=
  match s with
  | .fanOut targets => targets
  | .routed branches default =>
    let label := (output.bind branchLabel).getD default
    match branches.find? fun b => b.label = label with
    | some branch => branch.targets
    | none => []

/-- Every target in the order of the labels. -/
def targets : Successors → List String
  | .fanOut targets => targets
  | .routed branches _ => branches.flatMap Branch.targets

end Successors

/-- A node of a plan. -/
structure Step where
  node : Node
  role : Role
  successors : Successors

/-- A function of a program and the node type it serves. -/
structure ActivityRef where
  typeTag : String
  function : String
deriving DecidableEq

/-- A plan. -/
structure Plan where
  starts : List String
  steps : List Step
  activities : List ActivityRef

namespace Plan

/-- Whether a node is dispatched to a function. -/
def isDispatched (node : Node) : Bool :=
  !node.disabled && !(NodeKind.ofTag node.typeTag).isTrigger

/-- The functions of a program: one per type of dispatched node, in order of first use. -/
def activitiesOf (nodes : List Node) : List ActivityRef :=
  let tags := ((nodes.filter isDispatched).map Node.typeTag).eraseDups
  (assign functionName tags).map fun entry => ⟨entry.1, entry.2⟩

/-- The function of a node type. -/
def functionOf (activities : List ActivityRef) (typeTag : String) : String :=
  match activities.find? fun a => a.typeTag = typeTag with
  | some activity => activity.function
  | none => functionName typeTag

/-- The role of a node. -/
def roleOf (activities : List ActivityRef) (node : Node) : Role :=
  if node.disabled then .disabled
  else if (NodeKind.ofTag node.typeTag).isTrigger then .trigger
  else .activity (functionOf activities node.typeTag)

/-- The successor rule of a node. -/
def successorsOf (w : Workflow) (defaults : RouterDefaults) (node : Node) : Successors :=
  match NodeKind.ofTag node.typeTag with
  | .router kind =>
    if node.disabled then .fanOut (w.graph.fanOut node.id)
    else
      .routed
        ((w.graph.labels node.id).map fun label => ⟨label, w.graph.targetsFor node.id label⟩)
        (defaults.label node kind)
  | _ => .fanOut (w.graph.fanOut node.id)

/-- The plan of a workflow, started where its runs start by themselves. -/
def ofWorkflow (w : Workflow) (defaults : RouterDefaults) : Plan :=
  let activities := activitiesOf w.nodes
  { starts := w.graph.starts
    steps := w.nodes.map fun node =>
      ⟨node, roleOf activities node, successorsOf w defaults node⟩
    activities := activities }

/-- The step of a node id. -/
def step? (p : Plan) (id : String) : Option Step := p.steps.find? fun s => s.node.id = id

/-- Replay the plan from a traversal, at most `fuel` ids; `visited` lists the ids so far, last
first. -/
def replay {m : Type → Type} [Monad m] (p : Plan) (outputOf : Node → m Json) (fuel : Nat)
    (t : Traversal) (visited : List String) : m (List String) :=
  match fuel with
  | 0 => pure visited.reverse
  | fuel + 1 =>
    match t.next with
    | (none, _) => pure visited.reverse
    | (some id, t) =>
      match p.step? id with
      | none => replay p outputOf fuel t visited
      | some step => do
        let output ← if step.role = .disabled then pure none else some <$> outputOf step.node
        replay p outputOf fuel (t.complete id (step.successors.select output)) (id :: visited)

/-- The ids a generated program visits, in order.  Every id taken from the queue is a start or a
target of a step, which bounds the replay. -/
def simulate {m : Type → Type} [Monad m] (p : Plan) (outputOf : Node → m Json) :
    m (List String) :=
  let targets := p.steps.flatMap fun s => s.successors.targets
  replay p outputOf (p.starts.length + targets.length) (.start p.starts) []

end Plan

end FlowGraph.Program
