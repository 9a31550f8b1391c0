import FlowGraph.Proofs.Program.TaskOrder
import FlowGraph.Proofs.Workflow.Starts

/-!
# First tasks

A task graph must have somewhere to begin: a task that reads from no other task, so
that it takes the input of the run, and that no other task has behind it.  The first
tasks are those of the starts, so that a workflow has a first task above every task
unless it has a cycle.

Main results:

- Theorem `isFirst_iff`: the first tasks are those of the starts.
- Theorem `exists_first_above`: without a cycle every task lies behind a first task.
- Theorem `only_cycles_hide_nodes`: only a cycle keeps a workflow from starting or a
  node out of reach, and the tasks of a project all lie behind first ones.
-/

namespace FlowGraph.Program.Airflow

/-- A first task reads from no task, and no dependency line has it behind a task. -/
structure Task.IsFirst (tasks : List Task) (t : Task) : Prop where
  reads_none : t.sources = []
  follows_none : ∀ u, ¬ Precedes tasks u t.varName

section

variable {w : Workflow} {defaults : RouterDefaults}

/-- The node of a task is declared. -/
theorem isSome_node?_of_mem_planTasks {t : Task} (ht : t ∈ planTasks w defaults) :
    (w.node? t.node.id).isSome = true := by
  rw [Workflow.isSome_node?_iff, ← map_node_planTasks w defaults, List.map_map]
  exact List.mem_map_of_mem ht

/-- The first tasks are those of the starts. -/
theorem isFirst_iff {t : Task} (ht : t ∈ planTasks w defaults) :
    t.IsFirst (planTasks w defaults) ↔ t.node.id ∈ w.graph.starts := by
  rw [Workflow.mem_starts_iff]
  constructor
  · intro hfirst
    refine ⟨isSome_node?_of_mem_planTasks ht, ?_⟩
    rintro source ⟨c, hc, rfl, htarget⟩
    obtain ⟨u, hu, hid⟩ : ∃ u ∈ planTasks w defaults, u.node.id = c.source :=
      exists_task_of_node (Workflow.isSome_node?_of_connection hc).1
    exact hfirst.follows_none _ ((precedes_iff hu ht).mpr ⟨c, hc, hid.symm, htarget⟩)
  · rintro ⟨-, hnone⟩
    constructor
    · rw [List.eq_nil_iff_forall_not_mem]
      intro id hid
      obtain ⟨u, hu, rfl, -⟩ := (names_sources ht).exists_task hid
      exact hnone u.node.id ((mem_sources_iff hu ht).mp hid)
    · rintro v ⟨u, hu, rfl, hbehind⟩
      exact hnone u.node.id ((mem_followerNames_iff hu ht).mp hbehind)

/-- A way along the connections from the node of a task leads along the dependency
lines to a task. -/
theorem precedes_of_connects {t : Task} (ht : t ∈ planTasks w defaults) {id : String}
    (hway : Relation.ReflTransGen w.Connects t.node.id id) :
    ∃ t' ∈ planTasks w defaults, t'.node.id = id ∧
      Relation.ReflTransGen (Precedes (planTasks w defaults)) t.varName t'.varName := by
  induction hway with
  | refl => exact ⟨t, ht, rfl, .refl⟩
  | tail _ hedge ih =>
      obtain ⟨u, hu, rfl, hlines⟩ := ih
      obtain ⟨c, hc, hsource, rfl⟩ := hedge
      obtain ⟨v, hv, hid⟩ : ∃ v ∈ planTasks w defaults, v.node.id = c.target :=
        exists_task_of_node (Workflow.isSome_node?_of_connection hc).2
      exact ⟨v, hv, hid, hlines.tail ((precedes_iff hu hv).mpr ⟨c, hc, hsource, hid.symm⟩)⟩

/-- Without a cycle every task lies behind a first task. -/
theorem exists_first_above (hacyclic : w.Acyclic) {t : Task} (ht : t ∈ planTasks w defaults) :
    ∃ first ∈ planTasks w defaults, first.IsFirst (planTasks w defaults) ∧
      Relation.ReflTransGen (Precedes (planTasks w defaults)) first.varName t.varName := by
  obtain ⟨start, hstart, hway⟩ :=
    Workflow.exists_start_above hacyclic (isSome_node?_of_mem_planTasks ht)
  obtain ⟨first, hfirst, rfl⟩ : ∃ first ∈ planTasks w defaults, first.node.id = start :=
    exists_task_of_node (Workflow.isSome_node?_of_mem_starts hstart)
  obtain ⟨t', ht', hid, hlines⟩ := precedes_of_connects hfirst hway
  obtain rfl := task_eq_of_node_id ht' ht hid
  exact ⟨first, hfirst, (isFirst_iff hfirst).mpr hstart, hlines⟩

end

/-- Only a cycle keeps a workflow that has nodes from starting, or a node out of reach:
where the search finds no cycle, some starts are found and the lint reports no node out
of reach, and where the starts are refused or a node is reported, the lint reports the
cycle as well.  The graph of a project with nodes has a first task, and all its tasks
lie behind first ones. -/
theorem only_cycles_hide_nodes (w : Workflow) :
    (w.findCycle = none →
      (w.nodes ≠ [] → ∃ starts, w.startNodes none = .ok starts ∧ starts ≠ []) ∧
        ¬ ∃ issue ∈ w.lint, issue.rule = "TWD101") ∧
    ((∃ issue ∈ w.lint, issue.rule = "TWD101") ∨
        w.nodes ≠ [] ∧ w.startNodes none = .error .noStartNodes →
      ∃ issue ∈ w.lint, issue.rule = "TWD100") ∧
    ∀ (defaults : RouterDefaults) (m : Metadata) (p : Project),
      project w defaults m = .ok p →
        graphFile m (planTasks w defaults) (Plan.ofWorkflow w defaults).code ∈ p.files ∧
        (w.nodes ≠ [] →
          ∃ first ∈ planTasks w defaults, first.IsFirst (planTasks w defaults)) ∧
        ∀ t ∈ planTasks w defaults, ∃ first ∈ planTasks w defaults,
          first.IsFirst (planTasks w defaults) ∧
          Relation.ReflTransGen (Precedes (planTasks w defaults)) first.varName t.varName := by
  refine ⟨fun hnone => ?_, fun hfault => ?_, fun defaults m p hp => ?_⟩
  · have hacyclic := Workflow.findCycle_eq_none_iff.mp hnone
    refine ⟨fun hnodes => ?_, Workflow.not_exists_lint_unreachable hacyclic⟩
    have hstarts := Workflow.startNodes_of_acyclic hacyclic hnodes
    exact ⟨_, hstarts, (Workflow.startNodes_eq_ok hstarts).1⟩
  · rw [Workflow.exists_lint_cycle_iff]
    intro hnone
    have hacyclic := Workflow.findCycle_eq_none_iff.mp hnone
    rcases hfault with hfar | ⟨hnodes, hrefused⟩
    · exact Workflow.not_exists_lint_unreachable hacyclic hfar
    · rw [Workflow.startNodes_of_acyclic hacyclic hnodes] at hrefused
      contradiction
  · have hacyclic := acyclic_of_project_eq_ok hp
    have hfiles := (project_eq_ok hp).1
    refine ⟨hfiles.mem_iff.mpr List.mem_cons_self, fun hnodes => ?_,
      fun t ht => exists_first_above hacyclic ht⟩
    have htasks : planTasks w defaults ≠ [] := by
      intro hempty
      apply hnodes
      rw [← map_node_planTasks w defaults, hempty, List.map_nil]
    obtain ⟨t, ht⟩ := List.exists_mem_of_ne_nil _ htasks
    obtain ⟨first, hfirst, hisFirst, -⟩ := exists_first_above hacyclic ht
    exact ⟨first, hfirst, hisFirst⟩

/-- The island that is out of reach is on a cycle; the fork starts, and all its tasks
lie behind the first one. -/
theorem only_cycles_hide_nodes_islandAndFork :
    ((∃ issue ∈ Workflow.choiceAndIsland.lint, issue.rule = "TWD101") ∧
      ∃ issue ∈ Workflow.choiceAndIsland.lint, issue.rule = "TWD100") ∧
    (collidingFork.findCycle = none ∧ collidingFork.nodes ≠ [] ∧
      ∃ starts, collidingFork.startNodes none = .ok starts ∧ starts ≠ []) ∧
    ∃ p, project collidingFork {} ⟨"Fork", "", none⟩ = .ok p ∧
      ∃ first ∈ planTasks collidingFork {}, first.IsFirst (planTasks collidingFork {}) := by
  have hfar : ∃ issue ∈ Workflow.choiceAndIsland.lint, issue.rule = "TWD101" := by
    rw [Workflow.exists_lint_unreachable_iff]
    refine ⟨.new "here" "flow.noOp", ?_, ?_⟩
    · simp [Workflow.choiceAndIsland, Workflow.nodes, Workflow.ofSound]
    · rw [← Workflow.exists_joined_iff]
      rintro ⟨n, hjoined⟩
      exact absurd hjoined.mem_choiceAndIsland (by decide)
  have hnone := Workflow.findCycle_of_acyclic acyclic_collidingFork
  have hnodes : collidingFork.nodes ≠ [] := List.cons_ne_nil _ _
  obtain ⟨-, hisland, -⟩ := only_cycles_hide_nodes Workflow.choiceAndIsland
  obtain ⟨hfork, -, hproject⟩ := only_cycles_hide_nodes collidingFork
  obtain ⟨p, hp⟩ : ∃ p, project collidingFork {} ⟨"Fork", "", none⟩ = .ok p := by
    rw [project, hnone]
    exact ⟨_, rfl⟩
  exact ⟨⟨hfar, hisland (.inl hfar)⟩, ⟨hnone, hnodes, (hfork hnone).1 hnodes⟩, p, hp,
    (hproject _ _ p hp).2.1 hnodes⟩

end FlowGraph.Program.Airflow
