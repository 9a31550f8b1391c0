import FlowGraph.Proofs.Workflow.Declared
import FlowGraph.Proofs.Workflow.Edges
import FlowGraph.Workflow.Lint

/-!
# The order of connections

Walking a workflow, searching it for a cycle and linting it all start from the nodes
and read its connections through the edges that leave one node at a time.  So of the
order of the connections only that within one source matters: two definitions that
list the same connections, those of every source in the same order, make workflows
that no traversal tells apart.

Main results:

- Theorem `Definition.Reordered.alike`: definitions whose connections differ only in
  the order of the sources make workflows that look alike.
- Theorem `Workflow.Alike.dryRun_eq`: workflows that look alike are walked alike.
- Theorems `Workflow.Alike.findCycle_eq` and `Workflow.Alike.lint_eq`: the search for a cycle
  and the lint find the same.
-/

namespace FlowGraph

/-- Two definitions with the same connections, those of every source in the same order;
the rest is equal. -/
structure Definition.Reordered (d d' : Definition) : Prop where
  name : d.name = d'.name
  description : d.description = d'.description
  nodes : d.nodes = d'.nodes
  perm : d.connections.Perm d'.connections
  leaving : ∀ id, Workflow.leaving d.connections id = Workflow.leaving d'.connections id

namespace Workflow

/-- Two workflows with the same texts, nodes and starts, the same edges at every node and
equally many connections. -/
structure Alike (w w' : Workflow) : Prop where
  name : w.name = w'.name
  description : w.description = w'.description
  nodes : w.nodes = w'.nodes
  starts : w.graph.starts = w'.graph.starts
  outgoing : w.graph.outgoing = w'.graph.outgoing
  length : w.connections.length = w'.connections.length

end Workflow

/-- Definitions whose connections differ only in the order of the sources make workflows
that look alike. -/
theorem Definition.Reordered.alike {w w' : Workflow} (h : w.definition.Reordered w'.definition) :
    w.Alike w' where
  name := h.name
  description := h.description
  nodes := h.nodes
  starts := by
    rw [w.graph_eq, w'.graph_eq, Graph.starts_ofParts, Graph.starts_ofParts, ← h.nodes]
    refine List.filter_congr fun id _ => decide_eq_decide.mpr (not_congr ?_)
    exact (h.perm.map Connection.target).mem_iff
  outgoing := by
    funext id
    rw [w.graph_eq, w'.graph_eq, Graph.outgoing_ofConnections, Graph.outgoing_ofConnections]
    exact congrArg (List.map _) (h.leaving id)
  length := h.perm.length_eq

namespace Workflow.Alike

variable {w w' : Workflow}

/-! ## Look-ups -/

theorem fanOut_eq (h : w.Alike w') : w.graph.fanOut = w'.graph.fanOut :=
  funext fun id => congrArg (List.map Edge.target) (congrFun h.outgoing id)

theorem labels_eq (h : w.Alike w') : w.graph.labels = w'.graph.labels :=
  funext fun id =>
    congrArg (fun edges : List Edge => (edges.map Edge.label).eraseDups) (congrFun h.outgoing id)

theorem targetsFor_eq (h : w.Alike w') : w.graph.targetsFor = w'.graph.targetsFor := by
  funext id label
  rw [Graph.targetsFor, Graph.targetsFor, h.outgoing]

theorem index_eq (h : w.Alike w') : w.index = w'.index := by
  rw [w.index_eq, w'.index_eq]
  exact congrArg Definition.declaredIds h.nodes

theorem node?_eq (h : w.Alike w') : w.node? = w'.node? := by
  funext id
  rw [Workflow.node?, Workflow.node?, h.index_eq]

/-- A run of either starts at the same nodes. -/
theorem startNodes_eq (h : w.Alike w') : w.startNodes = w'.startNodes := by
  funext explicit
  unfold Workflow.startNodes
  rw [h.starts, h.index_eq]

/-! ## Walking -/

theorem successors_eq (h : w.Alike w') : Traversal.successors w = Traversal.successors w' := by
  funext defaults node output
  unfold Traversal.successors Graph.nextHops
  rw [h.fanOut_eq, h.targetsFor_eq]

section

variable {m : Type → Type} [Monad m] (defaults : RouterDefaults) (outputOf : Node → m Json)

theorem walk_eq (h : w.Alike w') (fuel : Nat) (t : Traversal) (visited : List String) :
    Traversal.walk w defaults outputOf fuel t visited =
      Traversal.walk w' defaults outputOf fuel t visited := by
  induction fuel generalizing t visited with
  | zero => rfl
  | succ fuel ih => simp only [Traversal.walk, h.node?_eq, h.successors_eq, ih]

/-- Workflows that look alike are walked alike. -/
theorem dryRun_eq (h : w.Alike w') (starts : List String) :
    Traversal.dryRun w starts defaults outputOf = Traversal.dryRun w' starts defaults outputOf := by
  rw [Traversal.dryRun, Traversal.dryRun, h.length]
  exact h.walk_eq defaults outputOf _ _ _

end

/-! ## Searching -/

theorem enter_eq (h : w.Alike w') : CycleSearch.enter w.graph = CycleSearch.enter w'.graph := by
  funext s id
  rw [CycleSearch.enter, CycleSearch.enter, h.fanOut_eq]

theorem run_eq (h : w.Alike w') (fuel : Nat) (s : CycleSearch) :
    CycleSearch.run w.graph fuel s = CycleSearch.run w'.graph fuel s := by
  induction fuel generalizing s with
  | zero => rcases s with ⟨marks, _ | ⟨⟨id, _ | ⟨target, targets⟩⟩, rest⟩⟩ <;> rfl
  | succ fuel ih =>
      rcases s with ⟨marks, _ | ⟨⟨id, _ | ⟨target, targets⟩⟩, rest⟩⟩
      · rfl
      · exact ih _
      · simp only [CycleSearch.run, h.enter_eq, ih]

theorem fromNodes_eq (h : w.Alike w') (fuel : Nat) (marks : Std.HashMap String Mark)
    (ids : List String) :
    CycleSearch.fromNodes w.graph fuel marks ids =
      CycleSearch.fromNodes w'.graph fuel marks ids := by
  induction ids generalizing marks with
  | nil => rfl
  | cons id rest ih => simp only [CycleSearch.fromNodes, h.run_eq, h.enter_eq, ih]

/-- The search for a cycle finds the same node. -/
theorem findCycle_eq (h : w.Alike w') : w.findCycle = w'.findCycle := by
  rw [Workflow.findCycle, Workflow.findCycle, h.nodes, h.length]
  exact h.fromNodes_eq _ _ _

theorem reachFrom_eq (h : w.Alike w') (fuel : Nat) (t : Traversal) :
    Workflow.reachFrom w.graph fuel t = Workflow.reachFrom w'.graph fuel t := by
  induction fuel generalizing t with
  | zero => rfl
  | succ fuel ih => simp only [Workflow.reachFrom, h.fanOut_eq, ih]

theorem reachable_eq (h : w.Alike w') : w.reachable = w'.reachable := by
  rw [Workflow.reachable, Workflow.reachable, h.starts, h.length]
  exact h.reachFrom_eq _ _

/-- The lint finds the same. -/
theorem lint_eq (h : w.Alike w') : w.lint = w'.lint := by
  have hrouter : w.isUnlabelledRouter = w'.isUnlabelledRouter := by
    funext node
    rw [isUnlabelledRouter, isUnlabelledRouter, h.labels_eq]
  rw [Workflow.lint, Workflow.lint, h.reachable_eq, h.findCycle_eq, h.nodes, hrouter]

end Workflow.Alike

end FlowGraph
