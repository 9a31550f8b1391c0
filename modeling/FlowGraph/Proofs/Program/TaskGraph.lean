import FlowGraph.Program.Airflow.Project
import FlowGraph.Proofs.Json.Ordered
import FlowGraph.Proofs.Program.Names
import FlowGraph.Proofs.Workflow.Cycle

/-!
# The edges of a task graph

An Airflow graph shows the connections of its workflow three times: behind every
task stand the variables of the tasks that follow it, every task lists the ids of
the tasks whose payload it reads, and a router has a table from labels to task
ids.  The first comes from the steps of the plan, the second from the index of
sources, the third from the labels, and each drops its own repeats.  This module
shows that all three are the connections of the workflow.

Main results:

- Theorem `names_filterMap`: looking up nodes one by one names their tasks when
  every node has one.
- Theorem `isTask_of_mem`: what the plan makes of a node.
- Theorem `selects_of_targets`: the table of a router selects among the tasks behind it.
- Theorem `project_draws_edges`: the graph of a workflow without a cycle draws
  exactly its connections, the same in all three views.

Current gaps:

- The edges are those of the text; in which order a scheduler takes the tasks is left
  out.
-/

namespace FlowGraph.Program.Airflow

/-! ## What a graph must show -/

/-- A list names the tasks of some nodes, in the order of the nodes and each
once. -/
def Names {α : Type} (tasks : List Task) (name : Task → α) (nodes : List String)
    (names : List α) : Prop :=
  ∃ named : List Task, named ⊆ tasks ∧ named.map (·.node.id) = nodes.eraseDups ∧
    names = named.map name

/-- The variables of the tasks that follow a task. -/
def Task.followerNames (t : Task) : List String := t.followers.map Task.nameAt

/-- The table of a router: one entry for each label of its connections, with the
ids of the tasks that the label leads to. -/
structure BranchTable.Selects (w : Workflow) (tasks : List Task) (u : Task)
    (table : BranchTable) : Prop where
  labels : table.entries.map Prod.fst =
    ((Workflow.leaving w.connections u.node.id).map Connection.sourceOutput).eraseDups
  targets : ∀ label ids, (label, ids) ∈ table.entries →
    Names tasks Task.id
      (((Workflow.leaving w.connections u.node.id).filter
        fun c => c.sourceOutput = label).map Connection.target) ids
  written : ∀ label, table.toJson.member? label =
    (table.entries.lookup label).map fun ids => .array (ids.map .string)
  downstream : ∀ label ids, (label, ids) ∈ table.entries → ∀ id ∈ ids,
    ∃ v ∈ tasks, v.id = id ∧ v.varName ∈ u.followerNames
  complete : ∀ v ∈ tasks, v.varName ∈ u.followerNames → ∃ entry ∈ table.entries, v.id ∈ entry.2

/-- Some tasks draw the connections of a workflow: every node has one task of its
own, and the three views of a connection agree. -/
structure DrawsEdges (w : Workflow) (tasks : List Task) : Prop where
  nodes : tasks.map Task.node = w.nodes
  /-- The id of a task is found among those given to the nodes. -/
  ids : ∀ t ∈ tasks, (assign taskId (w.nodes.map Node.id)).lookup t.node.id = some t.id
  nodup_ids : (tasks.map Task.id).Nodup
  nodup_variables : (tasks.map Task.varName).Nodup
  /-- A task is followed by the tasks of its targets and by nothing else. -/
  followers : ∀ u ∈ tasks, ∃ targets, (∀ id, id ∈ targets ↔ w.Connects u.node.id id) ∧
    Names tasks Task.varName targets u.followerNames
  /-- The dependency line of a task shows its variable and behind it the followers. -/
  printed : ∀ u ∈ tasks, u.dependencyLines =
    if u.followerNames = [] then []
    else ["    " ++ u.varName ++ " >> [" ++ ", ".intercalate u.followerNames ++ "]"]
  /-- A task reads from the tasks of its sources and from nothing else. -/
  sources : ∀ v ∈ tasks, Names tasks Task.id
    ((w.connections.filter fun c => c.target = v.node.id).map Connection.source) v.sources
  edge : ∀ u ∈ tasks, ∀ v ∈ tasks,
    (v.varName ∈ u.followerNames ↔ w.Connects u.node.id v.node.id) ∧
      (u.id ∈ v.sources ↔ w.Connects u.node.id v.node.id)
  once : ∀ u ∈ tasks, ∀ v ∈ tasks, w.Connects u.node.id v.node.id →
    u.followerNames.count v.varName = 1 ∧ v.sources.count u.id = 1
  routers : ∀ u ∈ tasks, (NodeKind.ofTag u.node.typeTag).isRouter = true →
    u.node.disabled = false → ∃ table, u.branches = some table ∧ table.Selects w tasks u
  others : ∀ u ∈ tasks, (NodeKind.ofTag u.node.typeTag).isRouter = false ∨
    u.node.disabled = true → u.branches = none

/-! ## Naming tasks -/

section

variable {α : Type} {tasks : List Task} {name : Task → α} {nodes : List String} {names : List α}

/-- Looking up nodes one by one names their tasks, when every node has one. -/
theorem names_filterMap {look : String → Option α}
    (hlook : ∀ t ∈ tasks, look t.node.id = some (name t))
    (hnodes : ∀ id ∈ nodes, ∃ t ∈ tasks, t.node.id = id) :
    Names tasks name nodes (nodes.eraseDups.filterMap look) := by
  have hnamed : ∀ ids : List String, (∀ id ∈ ids, ∃ t ∈ tasks, t.node.id = id) →
      ∃ named : List Task, named ⊆ tasks ∧ named.map (·.node.id) = ids ∧
        ids.filterMap look = named.map name := by
    intro ids hids
    induction ids with
    | nil => exact ⟨[], List.nil_subset _, rfl, rfl⟩
    | cons id rest ih =>
        obtain ⟨⟨t, ht, rfl⟩, hrest⟩ := List.forall_mem_cons.mp hids
        obtain ⟨named, hsub, hmap, hfound⟩ := ih hrest
        refine ⟨t :: named, List.cons_subset.mpr ⟨ht, hsub⟩, by rw [List.map_cons, hmap], ?_⟩
        rw [List.filterMap_cons_some (hlook t ht), hfound, List.map_cons]
  exact hnamed _ fun id hid => hnodes id (List.mem_eraseDups.mp hid)

/-- What is made of the names names the same tasks. -/
theorem Names.map {β : Type} (hnames : Names tasks name nodes names) (f : α → β) :
    Names tasks (fun t => f (name t)) nodes (names.map f) := by
  obtain ⟨named, hsub, hmap, rfl⟩ := hnames
  exact ⟨named, hsub, hmap, List.map_map⟩

/-- The names of distinct tasks are distinct. -/
theorem Names.nodup (hnames : Names tasks name nodes names)
    (hinj : ∀ t ∈ tasks, ∀ t' ∈ tasks, name t = name t' → t = t') : names.Nodup := by
  obtain ⟨named, hsub, hmap, rfl⟩ := hnames
  have hnodup : (named.map (·.node.id)).Nodup := hmap ▸ nodup_eraseDups nodes
  exact (List.nodup_map_iff_inj_on hnodup.of_map).mpr fun t ht t' ht' =>
    hinj t (hsub ht) t' (hsub ht')

/-- A task is named exactly when its node is meant. -/
theorem Names.mem_iff (hnames : Names tasks name nodes names)
    (hinj : ∀ t ∈ tasks, ∀ t' ∈ tasks, name t = name t' → t = t')
    (hids : ∀ t ∈ tasks, ∀ t' ∈ tasks, t.node.id = t'.node.id → t = t') {t : Task}
    (ht : t ∈ tasks) : name t ∈ names ↔ t.node.id ∈ nodes := by
  obtain ⟨named, hsub, hmap, rfl⟩ := hnames
  have hmeant : t.node.id ∈ nodes ↔ t.node.id ∈ named.map (·.node.id) := by
    rw [hmap, List.mem_eraseDups]
  rw [hmeant, List.mem_map, List.mem_map]
  constructor
  · rintro ⟨t', ht', heq⟩
    obtain rfl := hinj t' (hsub ht') t ht heq
    exact ⟨t', ht', rfl⟩
  · rintro ⟨t', ht', heq⟩
    obtain rfl := hids t' (hsub ht') t ht heq
    exact ⟨t', ht', rfl⟩

/-- Every name is that of a task whose node is meant. -/
theorem Names.exists_task (hnames : Names tasks name nodes names) {text : α}
    (htext : text ∈ names) : ∃ t ∈ tasks, name t = text ∧ t.node.id ∈ nodes := by
  obtain ⟨named, hsub, hmap, rfl⟩ := hnames
  obtain ⟨t, ht, rfl⟩ := List.mem_map.mp htext
  refine ⟨t, hsub ht, rfl, List.mem_eraseDups.mp ?_⟩
  exact hmap ▸ List.mem_map_of_mem ht

end

/-! ## The tasks of a plan -/

section

variable (w : Workflow) (defaults : RouterDefaults)

/-- The tasks that the plan of a workflow makes. -/
abbrev planTasks : List Task := tasksOf w (.ofWorkflow w defaults)

/-- What the plan makes of a node: the task stands where the node does and has
the id given to the node, and its lists are looked up node by node. -/
structure IsTask (t : Task) : Prop where
  place : w.nodes[t.index]? = some t.node
  id : (taskIds (.ofWorkflow w defaults)).lookup t.node.id = some t.id
  followers : t.followers = (Plan.successorsOf w defaults t.node).targets.eraseDups.filterMap
    (taskIndex? (.ofWorkflow w defaults))
  sources : t.sources = taskIdsOf (taskIds (.ofWorkflow w defaults))
    ((w.connections.filter fun c => c.target = t.node.id).map Connection.source)
  branches : t.branches =
    branchTable (taskIds (.ofWorkflow w defaults)) (Plan.successorsOf w defaults t.node)

theorem taskIds_ofWorkflow :
    taskIds (.ofWorkflow w defaults) = assign taskId (w.nodes.map Node.id) := by
  rw [taskIds, Plan.ofWorkflow, List.map_map]
  rfl

/-- There is one task for every node, in order. -/
theorem map_node_planTasks : (planTasks w defaults).map Task.node = w.nodes := by
  have hnode : (planTasks w defaults).map Task.node =
      ((Plan.ofWorkflow w defaults).steps.zipIdx.map Prod.fst).map Step.node := by
    rw [planTasks, tasksOf, List.map_map, List.map_map]
    rfl
  rw [hnode, List.zipIdx_map_fst, Plan.ofWorkflow, List.map_map]
  exact List.map_id w.nodes

variable {w defaults}

/-- The place of a node's task is the place of the node. -/
theorem taskIndex?_ofWorkflow {index : Nat} {node : Node} (hnode : w.nodes[index]? = some node) :
    taskIndex? (.ofWorkflow w defaults) node.id = some index := by
  obtain ⟨hlt, rfl⟩ := List.getElem?_eq_some_iff.mp hnode
  have hfind : w.nodes.findIdx? (fun other => other.id = w.nodes[index].id) = some index := by
    rw [List.findIdx?_eq_some_iff_getElem]
    refine ⟨hlt, by simp, fun j hj heq => ?_⟩
    have hids : w.nodes[j].id = w.nodes[index].id := by simpa using heq
    have hnodup := List.nodup_iff_injective_getElem.mp w.nodup_ids
    have hsame := @hnodup ⟨j, by simp; omega⟩ ⟨index, by simpa using hlt⟩ (by simpa using hids)
    exact absurd (Fin.mk.inj hsame) (Nat.ne_of_lt hj)
  rw [taskIndex?, Plan.ofWorkflow, List.findIdx?_map]
  exact hfind

/-- Every task is what the plan makes of a node. -/
theorem isTask_of_mem {t : Task} (ht : t ∈ planTasks w defaults) : IsTask w defaults t := by
  obtain ⟨⟨step, index⟩, hstep, rfl⟩ := List.mem_map.mp ht
  rw [List.mem_zipIdx_iff_getElem?, Plan.ofWorkflow, List.getElem?_map,
    Option.map_eq_some_iff] at hstep
  obtain ⟨node, hnode, rfl⟩ := hstep
  have hid : ∃ name, (taskIds (.ofWorkflow w defaults)).lookup node.id = some name := by
    rw [taskIds_ofWorkflow]
    exact exists_lookup_assign taskId (List.mem_map_of_mem (List.mem_of_getElem? hnode))
  obtain ⟨name, hname⟩ := hid
  have hsources : w.graph.sources node.id =
      (w.connections.filter fun c => c.target = node.id).map Connection.source := by
    rw [w.graph_eq, Graph.sources_ofConnections]
    rfl
  exact {
    place := hnode
    id := by simp [taskOf, hname]
    followers := rfl
    sources := congrArg (taskIdsOf (taskIds (.ofWorkflow w defaults))) hsources
    branches := rfl }

/-! ## Telling tasks apart -/

/-- The tasks stand for different nodes. -/
theorem nodup_node_ids : ((planTasks w defaults).map fun t => t.node.id).Nodup := by
  have hids := w.nodup_ids
  rwa [← map_node_planTasks w defaults, List.map_map] at hids

/-- Tasks of the same node are the same. -/
theorem task_eq_of_node_id {t t' : Task} (ht : t ∈ planTasks w defaults)
    (ht' : t' ∈ planTasks w defaults) (h : t.node.id = t'.node.id) : t = t' :=
  List.inj_on_of_nodup_map nodup_node_ids ht ht' h

/-- Tasks of the same id are the same. -/
theorem task_eq_of_id {t t' : Task} (ht : t ∈ planTasks w defaults)
    (ht' : t' ∈ planTasks w defaults) (h : t.id = t'.id) : t = t' := by
  have hid := (isTask_of_mem ht).id
  have hid' := (isTask_of_mem ht').id
  rw [taskIds_ofWorkflow] at hid hid'
  exact task_eq_of_node_id ht ht' (lookup_assign_inj (h ▸ hid) hid')

/-- Tasks of the same variable are the same. -/
theorem task_eq_of_varName {t t' : Task} (ht : t ∈ planTasks w defaults)
    (ht' : t' ∈ planTasks w defaults) (h : t.varName = t'.varName) : t = t' := by
  have hindex : t.index = t'.index := append_toString_injective "task_" h
  have hplace := (isTask_of_mem ht).place
  rw [hindex, (isTask_of_mem ht').place] at hplace
  exact task_eq_of_node_id ht ht' (congrArg Node.id (Option.some.inj hplace)).symm

/-- Every declared node has a task. -/
theorem exists_task_of_node {id : String} (hid : (w.node? id).isSome = true) :
    ∃ t ∈ planTasks w defaults, t.node.id = id := by
  rw [Workflow.isSome_node?_iff, ← map_node_planTasks w defaults, List.map_map] at hid
  exact List.mem_map.mp hid

/-! ## The three views -/

/-- The targets of a step are those that some connection leads to. -/
theorem mem_targets_successorsOf (node : Node) (id : String) :
    id ∈ (Plan.successorsOf w defaults node).targets ↔ w.Connects node.id id := by
  rw [← Workflow.mem_fanOut_iff_connects]
  unfold Plan.successorsOf
  split
  · split
    · rfl
    · simp only [Successors.targets, List.flatMap_map, List.mem_flatMap, Graph.labels,
        List.mem_eraseDups, Graph.targetsFor, Graph.fanOut, List.mem_map, List.mem_filter,
        decide_eq_true_eq]
      constructor
      · rintro ⟨_, _, edge, ⟨hedge, _⟩, htarget⟩
        exact ⟨edge, hedge, htarget⟩
      · rintro ⟨edge, hedge, htarget⟩
        exact ⟨edge.label, ⟨edge, hedge, rfl⟩, edge, ⟨hedge, rfl⟩, htarget⟩
  · rfl

/-- The variables behind a task name the tasks of its targets. -/
theorem names_followers {t : Task} (ht : t ∈ planTasks w defaults) :
    Names (planTasks w defaults) Task.varName (Plan.successorsOf w defaults t.node).targets
      t.followerNames := by
  have hplaces : Names (planTasks w defaults) Task.index
      (Plan.successorsOf w defaults t.node).targets t.followers := by
    rw [(isTask_of_mem ht).followers]
    refine names_filterMap (fun t' ht' => taskIndex?_ofWorkflow (isTask_of_mem ht').place) ?_
    intro id hid
    obtain ⟨c, hc, -, rfl⟩ := (mem_targets_successorsOf t.node id).mp hid
    exact exists_task_of_node (Workflow.isSome_node?_of_connection hc).2
  exact hplaces.map Task.nameAt

/-- Looking up ids of declared nodes names their tasks. -/
theorem names_taskIdsOf {nodes : List String}
    (hnodes : ∀ id ∈ nodes, (w.node? id).isSome = true) :
    Names (planTasks w defaults) Task.id nodes
      (taskIdsOf (taskIds (.ofWorkflow w defaults)) nodes) :=
  names_filterMap (fun _ ht => (isTask_of_mem ht).id) fun id hid =>
    exists_task_of_node (hnodes id hid)

/-- The ids that a task reads from name the tasks of its sources. -/
theorem names_sources {t : Task} (ht : t ∈ planTasks w defaults) :
    Names (planTasks w defaults) Task.id
      ((w.connections.filter fun c => c.target = t.node.id).map Connection.source) t.sources := by
  rw [(isTask_of_mem ht).sources]
  refine names_taskIdsOf fun id hid => ?_
  obtain ⟨c, hc, rfl⟩ := List.mem_map.mp hid
  exact (Workflow.isSome_node?_of_connection (List.mem_of_mem_filter hc)).1

/-- A task is behind another exactly when a connection leads there. -/
theorem mem_followerNames_iff {u v : Task} (hu : u ∈ planTasks w defaults)
    (hv : v ∈ planTasks w defaults) :
    v.varName ∈ u.followerNames ↔ w.Connects u.node.id v.node.id := by
  rw [(names_followers hu).mem_iff (fun _ ht _ ht' => task_eq_of_varName ht ht')
    (fun _ ht _ ht' => task_eq_of_node_id ht ht') hv, mem_targets_successorsOf]

/-- A task reads from another exactly when a connection comes from there. -/
theorem mem_sources_iff {u v : Task} (hu : u ∈ planTasks w defaults)
    (hv : v ∈ planTasks w defaults) : u.id ∈ v.sources ↔ w.Connects u.node.id v.node.id := by
  rw [(names_sources hv).mem_iff (fun _ ht _ ht' => task_eq_of_id ht ht')
    (fun _ ht _ ht' => task_eq_of_node_id ht ht') hu]
  simp only [List.mem_map, List.mem_filter, decide_eq_true_eq, Workflow.Connects]
  exact exists_congr fun c => by rw [and_assoc, and_comm (a := c.target = _)]

/-! ## The table of a router -/

/-- A table written as a record holds for every label the ids of its entry. -/
theorem BranchTable.member?_toJson {table : BranchTable}
    (hlabels : (table.entries.map Prod.fst).Nodup) (label : String) :
    table.toJson.member? label =
      (table.entries.lookup label).map fun ids => .array (ids.map .string) := by
  have hnames : ((table.entries.map fun entry =>
      (entry.1, Json.array (entry.2.map .string))).map Prod.fst).Nodup := by
    rwa [List.map_map]
  exact (Members.lookup_ofList hnames label).trans
    (lookup_map_values table.entries (fun _ ids => Json.array (ids.map .string)) label)

/-- A table with the right labels and targets selects among the tasks behind its
router. -/
theorem selects_of_targets {u : Task} (hu : u ∈ planTasks w defaults) {table : BranchTable}
    (hlabels : table.entries.map Prod.fst =
      ((Workflow.leaving w.connections u.node.id).map Connection.sourceOutput).eraseDups)
    (htargets : ∀ label ids, (label, ids) ∈ table.entries →
      Names (planTasks w defaults) Task.id
        (((Workflow.leaving w.connections u.node.id).filter
          fun c => c.sourceOutput = label).map Connection.target) ids) :
    table.Selects w (planTasks w defaults) u where
  labels := hlabels
  targets := htargets
  written := BranchTable.member?_toJson (hlabels ▸ nodup_eraseDups _)
  downstream := by
    intro label ids hentry id hid
    obtain ⟨v, hv, rfl, hmeant⟩ := (htargets label ids hentry).exists_task hid
    refine ⟨v, hv, rfl, (mem_followerNames_iff hu hv).mpr ?_⟩
    obtain ⟨c, hc, htarget⟩ := List.mem_map.mp hmeant
    obtain ⟨hmem, hsource⟩ := List.mem_filter.mp (List.mem_of_mem_filter hc)
    exact ⟨c, hmem, of_decide_eq_true hsource, htarget⟩
  complete := by
    intro v hv hfollows
    obtain ⟨c, hc, hsource, htarget⟩ := (mem_followerNames_iff hu hv).mp hfollows
    have hleaving : c ∈ Workflow.leaving w.connections u.node.id :=
      List.mem_filter.mpr ⟨hc, decide_eq_true hsource⟩
    have hlabel : c.sourceOutput ∈ table.entries.map Prod.fst := by
      rw [hlabels, List.mem_eraseDups]
      exact List.mem_map_of_mem hleaving
    obtain ⟨⟨label, ids⟩, hentry, rfl⟩ := List.mem_map.mp hlabel
    refine ⟨_, hentry, ?_⟩
    rw [(htargets _ ids hentry).mem_iff (fun _ ht _ ht' => task_eq_of_id ht ht')
      (fun _ ht _ ht' => task_eq_of_node_id ht ht') hv, ← htarget]
    exact List.mem_map_of_mem (List.mem_filter.mpr ⟨hleaving, decide_eq_true rfl⟩)

/-- An enabled router has a table that selects among the tasks behind it. -/
theorem exists_selecting_table {u : Task} (hu : u ∈ planTasks w defaults)
    (hrouter : (NodeKind.ofTag u.node.typeTag).isRouter = true)
    (henabled : u.node.disabled = false) :
    ∃ table, u.branches = some table ∧ table.Selects w (planTasks w defaults) u := by
  cases hkind : NodeKind.ofTag u.node.typeTag with
  | trigger => simp [hkind, NodeKind.isRouter] at hrouter
  | activity => simp [hkind, NodeKind.isRouter] at hrouter
  | router kind =>
      have hsuccessors : Plan.successorsOf w defaults u.node =
          .routed ((w.graph.labels u.node.id).map fun label =>
            ⟨label, w.graph.targetsFor u.node.id label⟩) (defaults.label u.node kind) := by
        simp [Plan.successorsOf, hkind, henabled]
      rw [(isTask_of_mem hu).branches, hsuccessors, branchTable, List.map_map]
      refine ⟨_, rfl, selects_of_targets hu ?_ ?_⟩
      · rw [List.map_map, ← Workflow.labels_eq]
        exact List.map_id _
      · intro label ids hentry
        obtain ⟨label, -, hpair⟩ := List.mem_map.mp hentry
        obtain ⟨rfl, rfl⟩ := Prod.mk.inj hpair
        rw [← Workflow.targetsFor_eq]
        refine names_taskIdsOf fun id hid => ?_
        exact Workflow.isSome_node?_of_mem_fanOut
          ((Workflow.targetsFor_sublist_fanOut w.graph u.node.id label).subset hid)

/-- Only an enabled router has a table. -/
theorem branches_eq_none {u : Task} (hu : u ∈ planTasks w defaults)
    (hother : (NodeKind.ofTag u.node.typeTag).isRouter = false ∨ u.node.disabled = true) :
    u.branches = none := by
  rw [(isTask_of_mem hu).branches, Plan.successorsOf]
  split
  next kind hkind =>
    have hdisabled : u.node.disabled = true := by
      simpa [hkind, NodeKind.isRouter] using hother
    rw [if_pos hdisabled, branchTable]
  next => rfl

/-! ## The graph file -/

/-- The dependency line of a task shows its variable and behind it the followers. -/
theorem Task.dependencyLines_eq (t : Task) :
    t.dependencyLines =
      if t.followerNames = [] then []
      else ["    " ++ t.varName ++ " >> [" ++ ", ".intercalate t.followerNames ++ "]"] := by
  unfold dependencyLines followerNames
  cases t.followers with
  | nil => rfl
  | cons first rest => rfl

/-- The graph file has the dependency lines of its tasks. -/
theorem mem_lines_graphFile (m : Metadata) {tasks : List Task} (code : List ActivityCode) {t : Task}
    (ht : t ∈ tasks) {line : String} (hline : line ∈ t.dependencyLines) :
    line ∈ (graphFile m tasks code).lines := by
  have hmem : line ∈ tasks.flatMap Task.dependencyLines := List.mem_flatMap.mpr ⟨t, ht, hline⟩
  have hsome : (tasks.flatMap Task.dependencyLines).isEmpty = false :=
    List.isEmpty_eq_false_iff_exists_mem.mpr ⟨line, hmem⟩
  unfold graphFile
  dsimp only
  rw [hsome, if_neg Bool.false_ne_true]
  exact List.mem_append_right _ (List.mem_cons_of_mem _ hmem)

/-- The tasks of a workflow draw its connections. -/
theorem planTasks_draw_edges : DrawsEdges w (planTasks w defaults) where
  nodes := map_node_planTasks w defaults
  ids _ ht := by
    rw [← taskIds_ofWorkflow w defaults]
    exact (isTask_of_mem ht).id
  nodup_ids := (List.nodup_map_iff_inj_on nodup_node_ids.of_map).mpr
    fun _ ht _ ht' => task_eq_of_id ht ht'
  nodup_variables := (List.nodup_map_iff_inj_on nodup_node_ids.of_map).mpr
    fun _ ht _ ht' => task_eq_of_varName ht ht'
  followers u hu := ⟨_, mem_targets_successorsOf u.node, names_followers hu⟩
  printed u _ := u.dependencyLines_eq
  sources _ hv := names_sources hv
  edge _ hu _ hv := ⟨mem_followerNames_iff hu hv, mem_sources_iff hu hv⟩
  once _ hu _ hv hconnects :=
    ⟨List.count_eq_one_of_mem
        ((names_followers hu).nodup fun _ ht _ ht' => task_eq_of_varName ht ht')
        ((mem_followerNames_iff hu hv).mpr hconnects),
      List.count_eq_one_of_mem
        ((names_sources hv).nodup fun _ ht _ ht' => task_eq_of_id ht ht')
        ((mem_sources_iff hu hv).mpr hconnects)⟩
  routers _ hu := exists_selecting_table hu
  others _ hu := branches_eq_none hu

end

/-- The graph of a workflow without a cycle draws exactly its connections: what
stands behind a task, what a task reads from and what a router selects among are
the same connections, and no task looked up is missing.  The file has the dependency
lines of all tasks. -/
theorem project_draws_edges (w : Workflow) (hacyclic : w.Acyclic) (defaults : RouterDefaults)
    (m : Metadata) :
    let file := graphFile m (planTasks w defaults) (Plan.ofWorkflow w defaults).code
    ∃ p, project w defaults m = .ok p ∧ file ∈ p.files ∧
      (∀ u ∈ planTasks w defaults, u.dependencyLines ⊆ file.lines) ∧
      DrawsEdges w (planTasks w defaults) := by
  intro file
  rw [project, Workflow.findCycle_of_acyclic hacyclic]
  refine ⟨_, rfl, ?_, fun u hu _ hline => mem_lines_graphFile m _ hu hline, planTasks_draw_edges⟩
  rw [(Project.files_ofFiles_perm _ _).mem_iff]
  exact List.mem_cons_self

/-! ## Nodes whose ids collide -/

/-- Two ids give the same task id, and a router leads to the same node under two
labels, under one of them twice. -/
def collidingFork : Workflow :=
  .ofSound
    { nodes := [
        .new "start" "flow.manualTrigger", .new "a b" "flow.switch", .new "a_b" "flow.noOp"]
      connections := [
        { source := "start", target := "a b" },
        { source := "start", target := "a_b" },
        { source := "a b", sourceOutput := "x", target := "a_b" },
        { source := "a b", sourceOutput := "y", target := "a_b" },
        { source := "a b", sourceOutput := "x", target := "a_b" }] }
    ((Definition.violations_eq_nil_iff _).2 (by decide))

/-- The fork has no cycle: every connection leads further down. -/
theorem acyclic_collidingFork : collidingFork.Acyclic :=
  Workflow.acyclic_of_rank (fun id => if id = "start" then 0 else if id = "a b" then 1 else 2)
    (by decide)

/-- The graph of the fork draws its connections. -/
theorem project_draws_edges_collidingFork :
    let file := graphFile ⟨"Fork", "", none⟩ (planTasks collidingFork {})
      (Plan.ofWorkflow collidingFork {}).code
    collidingFork.Acyclic ∧ ∃ p, project collidingFork {} ⟨"Fork", "", none⟩ = .ok p ∧
      file ∈ p.files ∧
      (∀ u ∈ planTasks collidingFork {}, u.dependencyLines ⊆ file.lines) ∧
      DrawsEdges collidingFork (planTasks collidingFork {}) :=
  ⟨acyclic_collidingFork,
    project_draws_edges collidingFork acyclic_collidingFork {} ⟨"Fork", "", none⟩⟩

end FlowGraph.Program.Airflow
