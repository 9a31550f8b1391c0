import FlowGraph.Workflow.Cycle
import FlowGraph.Workflow.Traversal

/-!
# Findings about valid workflows

A finding does not keep a workflow from running: a cycle, whose nodes run once; a node that no
start reaches; a router whose connections are all unlabelled.

Main results:

- Theorem `lint_filter_rule`: the findings of a rule, without those of the others.
-/

namespace FlowGraph

/-- How serious a finding is. -/
inductive Severity where
  | error
  | warning
  | info
deriving DecidableEq

namespace Severity

/-- The name of a severity. -/
def name : Severity → String
  | .error => "error"
  | .warning => "warning"
  | .info => "info"

/-- The mark before a finding. -/
def icon : Severity → String
  | .error => "✗"
  | .warning => "⚠"
  | .info => "ℹ"

end Severity

/-- A finding about a workflow. -/
structure Issue where
  rule : String
  severity : Severity
  nodeId : Option String
  message : String
deriving DecidableEq

namespace Issue

/-- The finding as one line. -/
def text (i : Issue) : String :=
  let start := i.severity.icon ++ " [" ++ i.rule ++ "] "
  match i.nodeId with
  | some id => start ++ id ++ ": " ++ i.message
  | none => start ++ i.message

/-- The finding as a record; a finding about no node has no node member. -/
def toJson (i : Issue) : Json :=
  .ofPairs (
    [("rule_id", .string i.rule), ("severity", .string i.severity.name)] ++
    (i.nodeId.toList.map fun id => ("node_id", .string id)) ++
    [("message", .string i.message)])

/-- A node lies on a cycle. -/
def cycle (id : String) : Issue :=
  ⟨"TWD100", .warning, some id,
    "cycle detected; nodes in the cycle run at most once per execution"⟩

/-- A node is out of reach of every start. -/
def unreachable (id : String) : Issue :=
  ⟨"TWD101", .warning, some id, "node is not reachable from any start node"⟩

/-- A router has connections and none carries a label. -/
def unlabelledRouter (id : String) : Issue :=
  ⟨"TWD102", .info, some id,
    "router has only unlabelled outgoing connections; none of them will fire"⟩

end Issue

namespace Workflow

/-- Follow every connection from the queued ids, at most `fuel` of them, and return the set of ids
met. -/
def reachFrom (g : Graph) (fuel : Nat) (t : Traversal) : Std.HashSet String :=
  match fuel with
  | 0 => t.executed
  | fuel + 1 =>
    match t.next with
    | (none, t) => t.executed
    | (some id, t) => reachFrom g fuel (t.complete id (g.fanOut id))

/-- The ids that some path joins to a start node. -/
def reachable (w : Workflow) : Std.HashSet String :=
  reachFrom w.graph (w.graph.starts.length + w.connections.length) (.start w.graph.starts)

/-- Whether a node is a router with connections that are all unlabelled. -/
def isUnlabelledRouter (w : Workflow) (node : Node) : Bool :=
  let labels := w.graph.labels node.id
  (NodeKind.ofTag node.typeTag).isRouter && !labels.isEmpty && labels.all (· = mainLabel)

/-- Every finding: the cycle, then nodes out of reach, then unlabelled routers. -/
def lint (w : Workflow) : List Issue :=
  let reachable := w.reachable
  (w.findCycle.toList.map Issue.cycle) ++
    (w.nodes.filter fun node => !reachable.contains node.id).map (Issue.unreachable ·.id) ++
    (w.nodes.filter w.isUnlabelledRouter).map (Issue.unlabelledRouter ·.id)

/-! ## The findings of one rule -/

/-- Findings that all have one rule are the findings of that rule and of no other. -/
theorem filter_rule_map {α : Type} {f : α → Issue} {named : String}
    (hrule : ∀ a, (f a).rule = named) (as : List α) (rule : String) :
    (as.map f).filter (fun issue => issue.rule = rule) = if named = rule then as.map f else [] := by
  by_cases hnamed : named = rule
  · rw [if_pos hnamed, List.filter_eq_self]
    simp [hrule, hnamed]
  · rw [if_neg hnamed, List.filter_eq_nil_iff]
    simp [hrule, hnamed]

/-- The findings of a rule are those of the part of the lint that looks for them. -/
theorem lint_filter_rule (w : Workflow) (rule : String) :
    (w.lint.filter fun issue => issue.rule = rule) =
      (if "TWD100" = rule then w.findCycle.toList.map Issue.cycle else []) ++
      (if "TWD101" = rule then
        (w.nodes.filter fun node => !w.reachable.contains node.id).map (Issue.unreachable ·.id)
      else []) ++
      (if "TWD102" = rule then
        (w.nodes.filter w.isUnlabelledRouter).map (Issue.unlabelledRouter ·.id)
      else []) := by
  have hcycle (id : String) : (Issue.cycle id).rule = "TWD100" := rfl
  have hunreachable (node : Node) : (Issue.unreachable node.id).rule = "TWD101" := rfl
  have hrouter (node : Node) : (Issue.unlabelledRouter node.id).rule = "TWD102" := rfl
  rw [lint, List.filter_append, List.filter_append, filter_rule_map hcycle,
    filter_rule_map hunreachable, filter_rule_map hrouter]

end Workflow

end FlowGraph
