import FlowGraph.Proofs.Workflow.Acyclic
import FlowGraph.Proofs.Workflow.Edges
import FlowGraph.Proofs.Workflow.Reachable
import Mathlib.Data.Finset.Card

/-!
# Starts of a workflow without a cycle

A start is a node that no connection enters.  Going back along the connections of
a workflow without a cycle, the nodes further up get fewer with every connection,
so that every way back ends, and it can end only at a start.

Main results:

- Theorem `acyclic_iff_exists_rank`: there is no cycle exactly when the nodes have
  ranks that every connection leads up.
- Theorem `mem_starts_iff`: the starts are the declared nodes that no connection
  enters.
- Theorem `exists_start_above`: without a cycle some start leads to every node.
- Theorem `exists_lint_unreachable_iff`: the lint reports a node out of reach exactly
  when no start leads to some node.
-/

namespace FlowGraph

namespace Workflow

variable {w : Workflow}

/-! ## Ranks -/

open Classical in
/-- The nodes from which some way along the connections leads to a node. -/
noncomputable def above (w : Workflow) (id : String) : Finset String :=
  (w.connections.map Connection.source).toFinset.filter fun source =>
    Relation.TransGen w.Connects source id

/-- Every way begins with a connection. -/
theorem mem_above_iff {source id : String} :
    source ∈ w.above id ↔ Relation.TransGen w.Connects source id := by
  classical
  rw [above, Finset.mem_filter, List.mem_toFinset, List.mem_map]
  refine ⟨And.right, fun hway => ⟨?_, hway⟩⟩
  obtain ⟨_, ⟨c, hc, hsource, -⟩, -⟩ := Relation.TransGen.head'_iff.mp hway
  exact ⟨c, hc, hsource⟩

/-- A connection leads from fewer nodes above to more, without a cycle. -/
theorem above_ssubset (hacyclic : w.Acyclic) {source target : String}
    (hedge : w.Connects source target) : w.above source ⊂ w.above target := by
  rw [Finset.ssubset_iff_of_subset]
  · refine ⟨source, mem_above_iff.mpr (.single hedge), ?_⟩
    intro hself
    exact hacyclic source (mem_above_iff.mp hself)
  · intro id hid
    exact mem_above_iff.mpr ((mem_above_iff.mp hid).tail hedge)

/-- There is no cycle exactly when the nodes have ranks that every connection leads
up. -/
theorem acyclic_iff_exists_rank :
    w.Acyclic ↔ ∃ rank : String → Nat, ∀ c ∈ w.connections, rank c.source < rank c.target := by
  constructor
  · intro hacyclic
    refine ⟨fun id => (w.above id).card, fun c hc => ?_⟩
    exact Finset.card_lt_card (above_ssubset hacyclic ⟨c, hc, rfl, rfl⟩)
  · rintro ⟨rank, hrank⟩
    exact acyclic_of_rank rank hrank

/-! ## Starts -/

/-- The starts are the declared nodes that no connection enters. -/
theorem mem_starts_iff {id : String} :
    id ∈ w.graph.starts ↔ (w.node? id).isSome = true ∧ ∀ source, ¬ w.Connects source id := by
  rw [w.graph_eq, Graph.starts_ofParts, isSome_node?_iff, List.mem_filter, decide_eq_true_iff]
  refine and_congr_right fun _ => ?_
  rw [List.mem_map]
  constructor
  · rintro hnone source ⟨c, hc, -, htarget⟩
    exact hnone ⟨c, hc, htarget⟩
  · rintro hnone ⟨c, hc, htarget⟩
    exact hnone c.source ⟨c, hc, rfl, htarget⟩

/-- An id is joined to a start exactly when some way leads there from a start. -/
theorem exists_joined_iff {id : String} :
    (∃ n, Joined w n id) ↔
      ∃ start ∈ w.graph.starts, Relation.ReflTransGen w.Connects start id := by
  constructor
  · rintro ⟨n, hjoined⟩
    induction hjoined with
    | start hid => exact ⟨_, hid, .refl⟩
    | follow _ hnext ih =>
        obtain ⟨start, hstart, hway⟩ := ih
        exact ⟨start, hstart, hway.tail ((w.mem_fanOut_iff_connects _ _).mp hnext)⟩
  · rintro ⟨start, hstart, hway⟩
    induction hway with
    | refl => exact ⟨0, .start hstart⟩
    | tail _ hedge ih =>
        obtain ⟨n, hjoined⟩ := ih
        exact ⟨n + 1, .follow hjoined ((w.mem_fanOut_iff_connects _ _).mpr hedge)⟩

/-- Without a cycle some start leads to every declared node. -/
theorem exists_start_above (hacyclic : w.Acyclic) {id : String}
    (hid : (w.node? id).isSome = true) :
    ∃ start ∈ w.graph.starts, Relation.ReflTransGen w.Connects start id := by
  obtain ⟨rank, hrank⟩ := acyclic_iff_exists_rank.mp hacyclic
  -- Every connection gone back leads to a lower rank.
  induction hn : rank id using Nat.strong_induction_on generalizing id with
  | _ n ih =>
      subst hn
      by_cases hentered : ∃ c ∈ w.connections, c.target = id
      · obtain ⟨c, hc, rfl⟩ := hentered
        have hsource := (isSome_node?_of_connection hc).1
        obtain ⟨start, hstart, hway⟩ := ih (rank c.source) (hrank c hc) hsource rfl
        exact ⟨start, hstart, hway.tail ⟨c, hc, rfl, rfl⟩⟩
      · refine ⟨id, mem_starts_iff.mpr ⟨hid, ?_⟩, .refl⟩
        rintro source ⟨c, hc, -, htarget⟩
        exact hentered ⟨c, hc, htarget⟩

/-! ## What the lint finds -/

/-- A finding of a rule is one that the part of the lint for the rule finds. -/
theorem exists_lint_rule_iff (rule : String) :
    (∃ issue ∈ w.lint, issue.rule = rule) ↔
      (w.lint.filter fun issue => issue.rule = rule) ≠ [] := by
  simp [List.filter_eq_nil_iff]

/-- The lint reports a cycle exactly when the search finds one. -/
theorem exists_lint_cycle_iff :
    (∃ issue ∈ w.lint, issue.rule = "TWD100") ↔ w.findCycle ≠ none := by
  rw [exists_lint_rule_iff, lint_filter_rule]
  simp

/-- The lint reports a node out of reach exactly when no start leads to some
declared node. -/
theorem exists_lint_unreachable_iff :
    (∃ issue ∈ w.lint, issue.rule = "TWD101") ↔
      ∃ node ∈ w.nodes, ¬ ∃ start ∈ w.graph.starts,
        Relation.ReflTransGen w.Connects start node.id := by
  rw [exists_lint_rule_iff, lint_filter_unreachable, Ne, List.map_eq_nil_iff, outOfReach,
    List.filter_eq_nil_iff]
  simp only [← exists_joined_iff, ← mem_reachable_iff]
  simp

/-- Without a cycle the lint finds no node out of reach. -/
theorem not_exists_lint_unreachable (hacyclic : w.Acyclic) :
    ¬ ∃ issue ∈ w.lint, issue.rule = "TWD101" := by
  rw [exists_lint_unreachable_iff]
  rintro ⟨node, hnode, hfar⟩
  apply hfar
  apply exists_start_above hacyclic
  rw [isSome_node?_iff]
  exact List.mem_map_of_mem hnode

/-- Without a cycle a workflow that has a node has a start. -/
theorem startNodes_of_acyclic (hacyclic : w.Acyclic) (hnodes : w.nodes ≠ []) :
    w.startNodes none = .ok w.graph.starts := by
  obtain ⟨node, hnode⟩ := List.exists_mem_of_ne_nil _ hnodes
  have hdeclared : (w.node? node.id).isSome = true := by
    rw [isSome_node?_iff]
    exact List.mem_map_of_mem hnode
  obtain ⟨start, hstart, -⟩ := exists_start_above hacyclic hdeclared
  have hnonempty : w.graph.starts.isEmpty = false := by
    rw [List.isEmpty_eq_false_iff]
    exact List.ne_nil_of_mem hstart
  simp [startNodes, hnonempty]

end Workflow

end FlowGraph
