import FlowGraph.Json.Record
import FlowGraph.Workflow.Graph
import FlowGraph.Workflow.Kind

/-!
# Routing

A router writes the label of its choice into the `branch` member of its output, and only the
connections of that label fire.  Without a label the router's default applies.  Every other node
fires all its connections.
-/

namespace FlowGraph

/-- The output member that carries a router's choice. -/
def branchField : String := "branch"

/-- The parameter that overrides the default label of one router. -/
def defaultBranchParameter : String := "defaultBranch"

/-- Labels that routers fall back to. -/
structure RouterDefaults where
  ifBranch : String := "false"
  switchBranch : String := "default"
deriving DecidableEq

namespace RouterDefaults

/-- Read router defaults; both labels are required. -/
def read : ReadAs RouterDefaults := fun v => do
  let ms ← ReadAs.record ["default_if_branch", "default_switch_branch"] v
  return {
    ifBranch := ← ms.required "default_if_branch" .string
    switchBranch := ← ms.required "default_switch_branch" .string }

/-- Write router defaults. -/
def toJson (defaults : RouterDefaults) : Json :=
  .ofPairs [
    ("default_if_branch", .string defaults.ifBranch),
    ("default_switch_branch", .string defaults.switchBranch)]

end RouterDefaults

/-- The label a value stands for: a non-empty string, a boolean or an integer. -/
def branchLabelOf : Json → Option String
  | .string s => if s.isEmpty then none else some s
  | .bool b => some (if b then "true" else "false")
  | .number (.integer i) => some (toString i.val)
  | _ => none

/-- The label in a router's output. -/
def branchLabel (output : Json) : Option String := (output.member? branchField).bind branchLabelOf

/-- The label of a router whose output names none. -/
def RouterDefaults.label (defaults : RouterDefaults) (node : Node) (kind : RouterKind) : String :=
  match (node.parameter? defaultBranchParameter).bind branchLabelOf with
  | some label => label
  | none =>
    match kind with
    | .ifRouter => defaults.ifBranch
    | .switchRouter => defaults.switchBranch

/-- The nodes that follow an enabled node after its output, or after its failure. -/
def Graph.nextHops (g : Graph) (defaults : RouterDefaults) (node : Node) (output : Option Json) :
    List String :=
  match NodeKind.ofTag node.typeTag with
  | .router kind =>
    g.targetsFor node.id ((output.bind branchLabel).getD (defaults.label node kind))
  | .trigger | .activity => g.fanOut node.id

end FlowGraph
