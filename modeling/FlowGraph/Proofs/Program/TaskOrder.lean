import FlowGraph.Proofs.Program.Activities
import FlowGraph.Proofs.Program.TaskGraph
import FlowGraph.Proofs.Workflow.Acyclic

/-!
# The order of tasks

A graph file says which tasks follow which, and a scheduler needs this to be an
order.  A workflow without a cycle gives one, because the tasks follow each other as
the nodes are connected; a workflow with a cycle gets no project, and the fault names
a node on the cycle.

Main results:

- Theorem `not_transGen_precedes`: no task of a workflow without a cycle follows
  itself.
- Theorem `findCycle_decides_project`: the search for a cycle ends, finds a node on a
  cycle just if there is one, and decides whether the workflow has a project.
-/

namespace FlowGraph.Program.Airflow

open CycleSearch (Searches)

/-- The dependency line of some task has the first variable in front and the second
one behind it. -/
def Precedes (tasks : List Task) (u v : String) : Prop :=
  ∃ t ∈ tasks, t.varName = u ∧ v ∈ t.followerNames

section

variable {w : Workflow} {defaults : RouterDefaults}

/-- A connection between the nodes of two tasks is a dependency line. -/
theorem precedes_iff {t t' : Task} (ht : t ∈ planTasks w defaults)
    (ht' : t' ∈ planTasks w defaults) :
    Precedes (planTasks w defaults) t.varName t'.varName ↔ w.Connects t.node.id t'.node.id := by
  constructor
  · rintro ⟨u, hu, hvar, hbehind⟩
    obtain rfl := task_eq_of_varName hu ht hvar
    exact (mem_followerNames_iff hu ht').mp hbehind
  · intro hedge
    exact ⟨t, ht, rfl, (mem_followerNames_iff ht ht').mpr hedge⟩

/-- The variables of a dependency line are those of tasks whose nodes are connected. -/
theorem exists_of_precedes {u v : String} (hline : Precedes (planTasks w defaults) u v) :
    ∃ t ∈ planTasks w defaults, t.varName = u ∧ ∃ t' ∈ planTasks w defaults, t'.varName = v ∧
      w.Connects t.node.id t'.node.id := by
  obtain ⟨t, ht, rfl, hv⟩ := hline
  obtain ⟨t', ht', rfl, -⟩ := (names_followers ht).exists_task hv
  exact ⟨t, ht, rfl, t', ht', rfl, (precedes_iff ht ht').mp ⟨t, ht, rfl, hv⟩⟩

/-- The variables along dependency lines are those of tasks whose nodes are connected. -/
theorem connects_of_precedes {u v : String}
    (hprecedes : Relation.TransGen (Precedes (planTasks w defaults)) u v) :
    ∃ t ∈ planTasks w defaults, t.varName = u ∧ ∃ t' ∈ planTasks w defaults, t'.varName = v ∧
      Relation.TransGen w.Connects t.node.id t'.node.id := by
  induction hprecedes with
  | single hline =>
      obtain ⟨t, ht, hvar, t', ht', hvar', hconnects⟩ := exists_of_precedes hline
      exact ⟨t, ht, hvar, t', ht', hvar', .single hconnects⟩
  | tail _ hline ih =>
      obtain ⟨t, ht, hvar, between, hbetween, hmiddle, hway⟩ := ih
      obtain ⟨other, hother, hsame, t', ht', hvar', hconnects⟩ := exists_of_precedes hline
      obtain rfl := task_eq_of_varName hother hbetween (hsame.trans hmiddle.symm)
      exact ⟨t, ht, hvar, t', ht', hvar', hway.tail hconnects⟩

/-- No task of a workflow without a cycle follows itself. -/
theorem not_transGen_precedes (hacyclic : w.Acyclic) (v : String) :
    ¬ Relation.TransGen (Precedes (planTasks w defaults)) v v := by
  intro hcycle
  obtain ⟨t, ht, hvar, t', ht', hvar', hway⟩ := connects_of_precedes hcycle
  obtain rfl := task_eq_of_varName ht ht' (hvar.trans hvar'.symm)
  exact hacyclic _ hway

end

/-- A workflow is refused just if the search finds a node, and the fault names it. -/
theorem project_eq_error_iff (w : Workflow) (defaults : RouterDefaults) (m : Metadata)
    (fault : CycleFault) :
    project w defaults m = .error fault ↔ w.findCycle = some fault.nodeId := by
  obtain ⟨id⟩ := fault
  rw [project]
  cases w.findCycle with
  | none => simp
  | some found => simp

/-- A workflow with a project has no cycle. -/
theorem acyclic_of_project_eq_ok {w : Workflow} {defaults : RouterDefaults} {m : Metadata}
    {p : Project} (hp : project w defaults m = .ok p) : w.Acyclic := by
  rw [← Workflow.findCycle_eq_none_iff]
  by_contra hsome
  obtain ⟨id, hfound⟩ := Option.ne_none_iff_exists'.mp hsome
  rw [(project_eq_error_iff w defaults m ⟨id⟩).mpr hfound] at hp
  contradiction

/-- The searches for a cycle end by themselves with one result; a node found lies on a
cycle, and none is found just if there is no cycle.  A workflow is refused just if it
has a cycle, and the fault names a node on one; in the graph of a project no task
follows itself. -/
theorem findCycle_decides_project (w : Workflow) :
    (∀ result, Searches w.graph ∅ (w.nodes.map Node.id) result ↔ w.findCycle = result) ∧
      (∀ id, w.findCycle = some id → Relation.TransGen w.Connects id id) ∧
      (w.findCycle = none ↔ w.Acyclic) ∧
      ∀ (defaults : RouterDefaults) (m : Metadata),
        ((∃ fault, project w defaults m = .error fault) ↔
          ∃ id, Relation.TransGen w.Connects id id) ∧
        (∀ fault, project w defaults m = .error fault →
          Relation.TransGen w.Connects fault.nodeId fault.nodeId) ∧
        ∀ p, project w defaults m = .ok p →
          graphFile m (planTasks w defaults) (Plan.ofWorkflow w defaults).code ∈ p.files ∧
            ∀ v, ¬ Relation.TransGen (Precedes (planTasks w defaults)) v v := by
  refine ⟨w.searches_iff, fun id => Workflow.on_cycle_of_findCycle,
    Workflow.findCycle_eq_none_iff, fun defaults m => ⟨⟨?_, ?_⟩, ?_, ?_⟩⟩
  · rintro ⟨fault, hfault⟩
    exact ⟨_, Workflow.on_cycle_of_findCycle ((project_eq_error_iff w defaults m fault).mp hfault)⟩
  · rintro ⟨id, hcycle⟩
    cases hfound : w.findCycle with
    | none => exact absurd hcycle (Workflow.findCycle_eq_none_iff.mp hfound id)
    | some found => exact ⟨⟨found⟩, (project_eq_error_iff w defaults m ⟨found⟩).mpr hfound⟩
  · intro fault hfault
    exact Workflow.on_cycle_of_findCycle ((project_eq_error_iff w defaults m fault).mp hfault)
  · intro p hp
    obtain ⟨hfiles, -⟩ := project_eq_ok hp
    exact ⟨hfiles.mem_iff.mpr List.mem_cons_self,
      not_transGen_precedes (acyclic_of_project_eq_ok hp)⟩

/-- The loop is refused at a node on its cycle, and the fork has a project. -/
theorem findCycle_decides_project_loopAndFork :
    (∃ fault, project Workflow.choiceLoop {} ⟨"Loop", "", none⟩ = .error fault ∧
      Relation.TransGen Workflow.choiceLoop.Connects fault.nodeId fault.nodeId) ∧
    ∃ p, project collidingFork {} ⟨"Fork", "", none⟩ = .ok p ∧
      ∀ v, ¬ Relation.TransGen (Precedes (planTasks collidingFork {})) v v := by
  have hcycle : Relation.TransGen Workflow.choiceLoop.Connects "check" "check" :=
    .tail (.single (b := "work") (by decide)) (by decide)
  obtain ⟨-, -, -, hloop⟩ := findCycle_decides_project Workflow.choiceLoop
  obtain ⟨hrefused, hnamed, -⟩ := hloop {} ⟨"Loop", "", none⟩
  obtain ⟨fault, hfault⟩ := hrefused.mpr ⟨"check", hcycle⟩
  obtain ⟨-, -, hnone, hfork⟩ := findCycle_decides_project collidingFork
  obtain ⟨p, hp⟩ : ∃ p, project collidingFork {} ⟨"Fork", "", none⟩ = .ok p := by
    rw [project, hnone.mpr acyclic_collidingFork]
    exact ⟨_, rfl⟩
  obtain ⟨-, -, hordered⟩ := hfork {} ⟨"Fork", "", none⟩
  exact ⟨⟨fault, hfault, hnamed fault hfault⟩, p, hp, (hordered p hp).2⟩

end FlowGraph.Program.Airflow
