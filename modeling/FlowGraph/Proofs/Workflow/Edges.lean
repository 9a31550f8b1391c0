import FlowGraph.Proofs.Grouping
import FlowGraph.Workflow.Graph

/-!
# The edges of a graph

A graph keeps its connections in three ways: as the edges that leave a node, as the
source nodes of the connections that enter it, and as the nodes that no connection
enters.  The connections need not join declared nodes, and several of them may join
the same two.

Main results:

- Theorem `count_outgoing_eq_count_sources`: an edge is listed as often where it
  begins as where it ends.
- Theorem `perm_targetsFor`: the labels of a node divide its targets among them.
- Theorem `starts_ofParts`: the starts are the nodes that are no target.
- Theorem `ofParts_keeps_edges`: the three ways agree, and none of them loses a
  connection or makes one up.
-/

namespace FlowGraph.Graph

variable (nodes : List Node) (connections : List Connection)

/-! ## Edges seen from both ends -/

/-- An edge is listed as often where it begins as where it ends. -/
theorem count_outgoing_eq_count_sources (source target : String) :
    (((ofParts nodes connections).outgoing source).map Edge.target).count target =
      ((ofParts nodes connections).sources target).count source := by
  rw [outgoing_ofConnections, sources_ofConnections, List.map_map, List.count_eq_countP,
    List.count_eq_countP, List.countP_map, List.countP_map, List.countP_filter,
    List.countP_filter]
  refine List.countP_congr fun c _ => ?_
  simp [and_comm]

/-! ## Edges by their labels -/

/-- The targets of a label are those of the connections that carry it, in order. -/
theorem targetsFor_ofConnections (source label : String) :
    (ofParts nodes connections).targetsFor source label =
      (connections.filter fun c => c.source = source ∧ c.sourceOutput = label).map
        Connection.target := by
  rw [targetsFor, outgoing_ofConnections, List.filter_map, List.filter_filter, List.map_map]
  congr 1
  refine List.filter_congr fun c _ => ?_
  simp [Bool.and_comm]

/-- The labels of a node divide its targets among them. -/
theorem perm_targetsFor (g : Graph) (id : String) :
    ((g.labels id).flatMap (g.targetsFor id)).Perm ((g.outgoing id).map Edge.target) := by
  have hlabels : ∀ edge ∈ g.outgoing id, edge.label ∈ g.labels id := fun edge hedge =>
    List.mem_eraseDups.mpr (List.mem_map_of_mem hedge)
  have hgroups := perm_flatMap_filter (nodup_eraseDups _) hlabels
  have hmap := hgroups.map Edge.target
  rwa [List.map_flatMap] at hmap

/-! ## Nodes that no connection enters -/

/-- The ids put into a set are the targets of the connections. -/
theorem mem_foldl_insert_target {set : Std.HashSet String} {id : String} :
    id ∈ connections.foldl (fun set c => set.insert c.target) set ↔
      id ∈ set ∨ id ∈ connections.map Connection.target := by
  induction connections generalizing set with
  | nil => simp
  | cons c rest ih =>
      rw [List.foldl_cons, ih, Std.HashSet.mem_insert, beq_iff_eq, List.map_cons, List.mem_cons,
        or_assoc, or_left_comm, eq_comm]

/-- The starts are the nodes that are no target, in order. -/
theorem starts_ofParts :
    (ofParts nodes connections).starts =
      (nodes.map Node.id).filter fun id => id ∉ connections.map Connection.target := by
  refine List.filter_congr fun id _ => ?_
  rw [Bool.eq_iff_iff, Bool.not_eq_true', ← Bool.not_eq_true, Std.HashSet.contains_iff_mem,
    mem_foldl_insert_target, decide_eq_true_iff]
  simp

/-- A node is no target exactly when it has no source nodes. -/
theorem sources_eq_nil_iff (id : String) :
    (ofParts nodes connections).sources id = [] ↔ id ∉ connections.map Connection.target := by
  rw [sources_ofConnections, List.map_eq_nil_iff, List.filter_eq_nil_iff, List.mem_map]
  simp

/-! ## All edges -/

/-- A graph loses no connection and makes none up.  The edges of a node and its source
nodes are its connections in their order, and both list an edge equally often.  The
distinct labels of a node divide its targets among them, each label keeping the order.
The starts are the nodes without source nodes, in order. -/
theorem ofParts_keeps_edges (nodes : List Node) (connections : List Connection) :
    let g := ofParts nodes connections
    (∀ u, g.outgoing u =
      (connections.filter fun c => c.source = u).map fun c => ⟨c.target, c.sourceOutput⟩) ∧
    (∀ v, g.sources v = (connections.filter fun c => c.target = v).map Connection.source) ∧
    (∀ u v, ((g.outgoing u).map Edge.target).count v = (g.sources v).count u) ∧
    (∀ u, (g.labels u).Nodup ∧
      ((g.labels u).flatMap (g.targetsFor u)).Perm ((g.outgoing u).map Edge.target) ∧
      ∀ label ∈ g.labels u, g.targetsFor u label =
        (connections.filter fun c => c.source = u ∧ c.sourceOutput = label).map
          Connection.target) ∧
    g.starts = (nodes.map Node.id).filter fun id => g.sources id = [] := by
  intro g
  refine ⟨outgoing_ofConnections nodes connections, sources_ofConnections nodes connections,
    count_outgoing_eq_count_sources nodes connections, fun u => ⟨nodup_eraseDups _,
      perm_targetsFor g u, fun label _ => targetsFor_ofConnections nodes connections u label⟩, ?_⟩
  rw [starts_ofParts]
  refine List.filter_congr fun id _ => ?_
  rw [decide_eq_decide]
  exact (sources_eq_nil_iff nodes connections id).symm

end FlowGraph.Graph
