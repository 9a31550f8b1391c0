import FlowGraph.Workflow.Routing
import FlowGraph.Workflow.Traversal
import Mathlib.Data.List.Basic
import Mathlib.Data.List.Nodup

/-!
# Declared nodes and hops

A workflow is built from a definition without violations.  This module turns
that into facts about its nodes: ids are distinct, a look-up finds exactly the
declared nodes, and every hop of a traversal leads to a declared node along a
connection.

Main results:

- Theorem `duplicates_eq_nil_iff`: no duplicate is reported exactly when the
  ids are distinct.
- Theorem `node?_eq_some_iff`: a look-up finds a node exactly when it is
  declared under that id.
- Theorem `successors_sublist_fanOut`: the hops of a node are some of its
  targets, in order.
- Theorem `isSome_node?_of_mem_successors`: every hop leads to a declared node.
-/

namespace FlowGraph

namespace Definition

/-! ## The look-up table -/

/-- Adding nodes to a look-up table keeps the entries it has. -/
theorem getElem?_foldl_insertIfNew (nodes : List Node) (ids : Std.HashMap String Node)
    (id : String) :
    (nodes.foldl (fun ids node => ids.insertIfNew node.id node) ids)[id]? =
      (ids[id]?).or (nodes.find? fun node => node.id = id) := by
  induction nodes generalizing ids with
  | nil => simp
  | cons node rest ih =>
      rw [List.foldl_cons, ih, Std.HashMap.getElem?_insertIfNew]
      by_cases hid : node.id = id
      · subst hid
        cases hold : ids[node.id]? with
        | none =>
            have hnew : node.id ∉ ids := by
              simpa using hold
            simp [hnew]
        | some old =>
            have hin : node.id ∈ ids := by
              rw [← Std.HashMap.isSome_getElem?_iff_mem, hold]
              rfl
            simp [hin]
      · simp [hid]

/-- The look-up table holds the first node of every id. -/
theorem getElem?_declaredIds (nodes : List Node) (id : String) :
    (declaredIds nodes)[id]? = nodes.find? fun node => node.id = id := by
  unfold declaredIds
  rw [getElem?_foldl_insertIfNew]
  simp

/-- An id is in the look-up table exactly when some node has it. -/
theorem contains_declaredIds_iff (nodes : List Node) (id : String) :
    (declaredIds nodes).contains id = true ↔ ∃ node ∈ nodes, node.id = id := by
  rw [Std.HashMap.contains_eq_isSome_getElem?, getElem?_declaredIds, List.find?_isSome]
  simp

/-! ## What the absence of violations says -/

/-- No duplicate is reported exactly when the ids are distinct and not among
those seen before. -/
theorem duplicatesFrom_eq_nil_iff (nodes : List Node) (seen : Std.HashMap String Nat)
    (index : Nat) :
    duplicatesFrom seen index nodes = [] ↔
      (nodes.map Node.id).Nodup ∧ ∀ node ∈ nodes, node.id ∉ seen := by
  induction nodes generalizing seen index with
  | nil => simp [duplicatesFrom]
  | cons node rest ih =>
      unfold duplicatesFrom
      cases hold : seen[node.id]? with
      | some first =>
          have hin : node.id ∈ seen := by
            rw [← Std.HashMap.isSome_getElem?_iff_mem, hold]
            rfl
          simp [hin]
      | none =>
          have hnew : node.id ∉ seen := by
            simpa using hold
          simp only [ih, List.map_cons, List.nodup_cons, List.mem_map, List.mem_cons,
            Std.HashMap.mem_insert, beq_iff_eq, forall_eq_or_imp, not_or]
          constructor
          · rintro ⟨hnodup, hfresh⟩
            refine ⟨⟨?_, hnodup⟩, hnew, fun other hother => (hfresh other hother).2⟩
            rintro ⟨other, hother, heq⟩
            exact (hfresh other hother).1 heq.symm
          · rintro ⟨⟨hfirst, hnodup⟩, _, hfresh⟩
            refine ⟨hnodup, fun other hother => ⟨?_, hfresh other hother⟩⟩
            intro heq
            exact hfirst ⟨other, hother, heq.symm⟩

/-- No duplicate is reported exactly when the ids are distinct. -/
theorem duplicates_eq_nil_iff (nodes : List Node) :
    duplicates nodes = [] ↔ (nodes.map Node.id).Nodup := by
  simp [duplicates, duplicatesFrom_eq_nil_iff]

/-- A connection has no missing end exactly when both ends are declared. -/
theorem missingEnds_eq_nil_iff (declared : String → Bool) (c : Connection) :
    missingEnds declared c = [] ↔ declared c.source = true ∧ declared c.target = true := by
  unfold missingEnds
  by_cases hsource : declared c.source = true
  · by_cases htarget : declared c.target = true
    · simp [hsource, htarget]
    · have hne : c.target ≠ c.source := by
        intro heq
        exact htarget (heq ▸ hsource)
      simp [hsource, htarget, hne]
  · simp [hsource]

/-- No dangling end is reported exactly when every connection joins declared
ids. -/
theorem danglingEnds_eq_nil_iff (nodes : List Node) (connections : List Connection) :
    danglingEnds nodes connections = [] ↔
      ∀ c ∈ connections, (declaredIds nodes).contains c.source = true ∧
        (declaredIds nodes).contains c.target = true := by
  unfold danglingEnds
  rw [List.filterMap_eq_nil_iff]
  constructor
  · intro hnone c hc
    rcases List.getElem_of_mem hc with ⟨i, hi, rfl⟩
    have hmem : (connections[i], i) ∈ connections.zipIdx := by
      rw [List.mem_zipIdx_iff_getElem?]
      exact List.getElem?_eq_getElem hi
    have hend := hnone _ hmem
    rw [← missingEnds_eq_nil_iff]
    unfold danglingEnd? at hend
    split at hend
    · assumption
    · contradiction
  · rintro hall ⟨c, i⟩ hmem
    have hc : c ∈ connections := by
      rw [List.mem_zipIdx_iff_getElem?] at hmem
      exact List.mem_of_getElem? hmem
    have hend := (missingEnds_eq_nil_iff _ _).2 (hall c hc)
    simp [danglingEnd?, hend]

/-- A definition makes sense exactly when its ids are distinct and every
connection joins two of them. -/
theorem violations_eq_nil_iff (d : Definition) :
    d.violations = [] ↔
      (d.nodes.map Node.id).Nodup ∧
        ∀ c ∈ d.connections, c.source ∈ d.nodes.map Node.id ∧ c.target ∈ d.nodes.map Node.id := by
  unfold violations
  rw [List.append_eq_nil_iff, duplicates_eq_nil_iff, danglingEnds_eq_nil_iff]
  simp only [contains_declaredIds_iff, List.mem_map]

end Definition

namespace Workflow

/-- A definition that makes sense is a workflow. -/
theorem ofDefinition_eq_ok {d : Definition} (sound : d.violations = []) :
    ofDefinition d = .ok (ofSound d sound) := by
  unfold ofDefinition
  split
  · rfl
  · contradiction

/-- A workflow keeps the definition that it was validated from. -/
theorem definition_of_ofDefinition {d : Definition} {w : Workflow}
    (hw : ofDefinition d = .ok w) : w.definition = d := by
  unfold ofDefinition at hw
  split at hw
  · rw [← Except.ok.inj hw]
    rfl
  · contradiction

/-! ## Nodes of a workflow -/

/-- The ids of a workflow's nodes are distinct. -/
theorem nodup_ids (w : Workflow) : (w.nodes.map Node.id).Nodup :=
  ((Definition.violations_eq_nil_iff w.definition).1 w.sound).1

/-- A look-up searches the declared nodes. -/
theorem node?_eq_find? (w : Workflow) (id : String) :
    w.node? id = w.nodes.find? fun node => node.id = id := by
  unfold node?
  rw [w.index_eq, Definition.getElem?_declaredIds]
  rfl

/-- A look-up finds a node exactly when it is declared under that id. -/
theorem node?_eq_some_iff (w : Workflow) (id : String) (node : Node) :
    w.node? id = some node ↔ node ∈ w.nodes ∧ node.id = id := by
  rw [node?_eq_find?]
  constructor
  · intro hfind
    exact ⟨List.mem_of_find?_eq_some hfind, by simpa using List.find?_some hfind⟩
  · rintro ⟨hmem, hid⟩
    cases hfind : w.nodes.find? fun node => node.id = id with
    | none =>
        have hnone := List.find?_eq_none.mp hfind node hmem
        simp [hid] at hnone
    | some other =>
        have hother : other.id = id := by
          simpa using List.find?_some hfind
        have heq := List.inj_on_of_nodup_map w.nodup_ids
          (List.mem_of_find?_eq_some hfind) hmem (hother.trans hid.symm)
        rw [heq]

/-- A node that a look-up finds has the id looked for. -/
theorem id_of_node? {w : Workflow} {id : String} {node : Node} (hnode : w.node? id = some node) :
    node.id = id :=
  ((w.node?_eq_some_iff id node).1 hnode).2

/-- Every node is found under its own id. -/
theorem node?_id {w : Workflow} {node : Node} (hmem : node ∈ w.nodes) :
    w.node? node.id = some node :=
  (w.node?_eq_some_iff node.id node).2 ⟨hmem, rfl⟩

/-- An id is looked up successfully exactly when it is declared. -/
theorem isSome_node?_iff (w : Workflow) (id : String) :
    (w.node? id).isSome = true ↔ id ∈ w.nodes.map Node.id := by
  rw [Option.isSome_iff_exists, List.mem_map]
  simp only [node?_eq_some_iff]

/-- Both ends of a connection are declared. -/
theorem isSome_node?_of_connection {w : Workflow} {c : Connection} (hc : c ∈ w.connections) :
    (w.node? c.source).isSome = true ∧ (w.node? c.target).isSome = true := by
  rw [isSome_node?_iff, isSome_node?_iff]
  exact ((Definition.violations_eq_nil_iff w.definition).1 w.sound).2 c hc

/-! ## Hops of a workflow -/

/-- The connections that leave an id. -/
def leaving (connections : List Connection) (id : String) : List Connection :=
  connections.filter fun c => c.source = id

/-- The targets of an id are those of its connections, in order. -/
theorem fanOut_eq (w : Workflow) (id : String) :
    w.graph.fanOut id = (leaving w.connections id).map Connection.target := by
  unfold Graph.fanOut leaving
  rw [w.graph_eq, Graph.outgoing_ofConnections, List.map_map]
  rfl

/-- The labels of an id are those of its connections. -/
theorem labels_eq (w : Workflow) (id : String) :
    w.graph.labels id = ((leaving w.connections id).map Connection.sourceOutput).eraseDups := by
  rw [Graph.labels, w.graph_eq, Graph.outgoing_ofConnections, List.map_map]
  rfl

/-- The targets of a label in a graph are those of its connections, in order. -/
theorem targetsFor_ofParts (nodes : List Node) (connections : List Connection)
    (id label : String) :
    (Graph.ofParts nodes connections).targetsFor id label =
      ((leaving connections id).filter fun c => c.sourceOutput = label).map
        Connection.target := by
  rw [Graph.targetsFor, Graph.outgoing_ofConnections, List.filter_map, List.map_map]
  rfl

/-- The targets of a label are those of its connections, in order. -/
theorem targetsFor_eq (w : Workflow) (id label : String) :
    w.graph.targetsFor id label =
      ((leaving w.connections id).filter fun c => c.sourceOutput = label).map
        Connection.target := by
  rw [w.graph_eq, targetsFor_ofParts]
  rfl

/-- The targets under one label are some of all targets, in order. -/
theorem targetsFor_sublist_fanOut (g : Graph) (id label : String) :
    (g.targetsFor id label).Sublist (g.fanOut id) :=
  List.Sublist.map Edge.target List.filter_sublist

/-- The hops of an enabled node are some of its targets, in order. -/
theorem nextHops_sublist_fanOut (g : Graph) (defaults : RouterDefaults) (node : Node)
    (output : Option Json) :
    (g.nextHops defaults node output).Sublist (g.fanOut node.id) := by
  unfold Graph.nextHops
  split
  · exact targetsFor_sublist_fanOut g node.id _
  · exact List.Sublist.refl _
  · exact List.Sublist.refl _

/-- The hops of a node are some of its targets, in order. -/
theorem successors_sublist_fanOut (w : Workflow) (defaults : RouterDefaults) (node : Node)
    (output : Option Json) :
    (Traversal.successors w defaults node output).Sublist (w.graph.fanOut node.id) := by
  unfold Traversal.successors
  split
  · exact List.Sublist.refl _
  · exact nextHops_sublist_fanOut w.graph defaults node output

/-- A node has at most as many hops as connections leave it. -/
theorem length_successors_le (w : Workflow) (defaults : RouterDefaults) (node : Node)
    (output : Option Json) :
    (Traversal.successors w defaults node output).length ≤
      (leaving w.connections node.id).length := by
  have hle := (successors_sublist_fanOut w defaults node output).length_le
  rwa [fanOut_eq, List.length_map] at hle

/-- Every target of a node is declared. -/
theorem isSome_node?_of_mem_fanOut {w : Workflow} {source id : String}
    (hid : id ∈ w.graph.fanOut source) : (w.node? id).isSome = true := by
  rw [fanOut_eq, List.mem_map] at hid
  rcases hid with ⟨c, hc, rfl⟩
  exact (isSome_node?_of_connection (List.mem_of_mem_filter hc)).2

/-- Every hop leads to a declared node. -/
theorem isSome_node?_of_mem_successors {w : Workflow} {defaults : RouterDefaults} {node : Node}
    {output : Option Json} {id : String}
    (hid : id ∈ Traversal.successors w defaults node output) :
    (w.node? id).isSome = true :=
  isSome_node?_of_mem_fanOut ((successors_sublist_fanOut w defaults node output).subset hid)

/-- Every hop of a node that is taken for enabled leads to a declared node. -/
theorem isSome_node?_of_mem_nextHops {w : Workflow} {defaults : RouterDefaults} {node : Node}
    {output : Option Json} {id : String} (hid : id ∈ w.graph.nextHops defaults node output) :
    (w.node? id).isSome = true :=
  isSome_node?_of_mem_fanOut ((nextHops_sublist_fanOut w.graph defaults node output).subset hid)

/-- Every source node of a node is declared. -/
theorem isSome_node?_of_mem_sources {w : Workflow} {target id : String}
    (hid : id ∈ w.graph.sources target) : (w.node? id).isSome = true := by
  rw [w.graph_eq, Graph.sources_ofConnections, List.mem_map] at hid
  rcases hid with ⟨c, hc, rfl⟩
  exact (isSome_node?_of_connection (List.mem_of_mem_filter hc)).1

/-! ## Where a run starts -/

/-- The nodes that no connection enters are declared. -/
theorem isSome_node?_of_mem_starts {w : Workflow} {id : String} (hid : id ∈ w.graph.starts) :
    (w.node? id).isSome = true := by
  rw [w.graph_eq] at hid
  rw [isSome_node?_iff]
  exact List.mem_of_mem_filter hid

/-- Accepted starts are declared, and there is at least one. -/
theorem startNodes_eq_ok {w : Workflow} {explicit : Option (List String)} {starts : List String}
    (hstarts : w.startNodes explicit = .ok starts) :
    starts ≠ [] ∧ ∀ id ∈ starts, (w.node? id).isSome = true := by
  have hdetected (hok : (if w.graph.starts.isEmpty then .error .noStartNodes
      else .ok w.graph.starts : Except StartFault (List String)) = .ok starts) :
      starts ≠ [] ∧ ∀ id ∈ starts, (w.node? id).isSome = true := by
    split at hok
    · contradiction
    · rename_i hnonempty
      obtain rfl := Except.ok.inj hok
      exact ⟨by simpa using hnonempty, fun id => isSome_node?_of_mem_starts⟩
  unfold startNodes at hstarts
  dsimp only at hstarts
  split at hstarts
  · exact hdetected hstarts
  · rename_i ids
    split at hstarts
    · contradiction
    · rename_i hfound
      split at hstarts
      · exact hdetected hstarts
      · rename_i hnonempty
        obtain rfl := Except.ok.inj hstarts
        refine ⟨by simpa using hnonempty, ?_⟩
        intro id hid
        have hcontains := List.find?_eq_none.mp hfound id hid
        simpa [node?, Std.HashMap.isSome_getElem?_eq_contains] using hcontains

/-! ## A workflow with a choice and a loop -/

/-- A trigger leads to a choice; one side of it works and comes back, the other
is done. -/
def choiceLoop : Workflow :=
  ofSound
    { nodes := [
        .new "start" "flow.manualTrigger", .new "check" "flow.if",
        .new "work" "flow.noOp", .new "done" "flow.noOp"]
      connections := [
        { source := "start", target := "check" },
        { source := "check", sourceOutput := "true", target := "work" },
        { source := "work", target := "check" },
        { source := "check", sourceOutput := "false", target := "done" }] }
    ((Definition.violations_eq_nil_iff _).2 (by decide))

/-- Only the trigger of the loop starts by itself. -/
theorem startNodes_choiceLoop : choiceLoop.startNodes none = .ok ["start"] := by
  simp [choiceLoop, startNodes, ofSound, Graph.ofParts, Graph.startsOf, Node.new,
    Std.HashSet.contains_insert]

/-- The trigger of the loop is declared. -/
theorem node?_choiceLoop :
    choiceLoop.node? "start" = some (.new "start" "flow.manualTrigger") :=
  (node?_eq_some_iff choiceLoop _ _).2 ⟨List.mem_cons_self, rfl⟩

/-- The choice of the loop is declared. -/
theorem node?_check_choiceLoop : choiceLoop.node? "check" = some (.new "check" "flow.if") :=
  (node?_eq_some_iff choiceLoop _ _).2 ⟨by simp [choiceLoop, nodes, ofSound], rfl⟩

/-- The last node of the loop is declared. -/
theorem node?_done_choiceLoop :
    choiceLoop.node? "done" = some (.new "done" "flow.noOp") :=
  (node?_eq_some_iff choiceLoop _ _).2 ⟨by simp [choiceLoop, nodes, ofSound], rfl⟩

/-- A run of the loop may start at its last node. -/
theorem startNodes_done_choiceLoop :
    choiceLoop.startNodes (some ["done"]) = .ok ["done"] := by
  have hcontains : choiceLoop.index.contains "done" = true := by
    rw [Std.HashMap.contains_eq_isSome_getElem?]
    exact congrArg Option.isSome node?_done_choiceLoop
  simp [startNodes, hcontains]

/-- The trigger of the loop leads to the choice. -/
theorem nextHops_choiceLoop (output : Option Json) :
    choiceLoop.graph.nextHops {} (.new "start" "flow.manualTrigger") output = ["check"] := by
  have hkind : NodeKind.ofTag "flow.manualTrigger" = .trigger := by decide
  simp only [Graph.nextHops, Node.new, hkind, fanOut_eq]
  rfl

/-- Nothing comes after the last node of the loop. -/
theorem nextHops_done_choiceLoop (output : Option Json) :
    choiceLoop.graph.nextHops {} (.new "done" "flow.noOp") output = [] := by
  have hkind : NodeKind.ofTag "flow.noOp" = .activity := by decide
  simp only [Graph.nextHops, Node.new, hkind, fanOut_eq]
  rfl

end Workflow

end FlowGraph
