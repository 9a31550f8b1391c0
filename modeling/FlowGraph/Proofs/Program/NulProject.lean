import FlowGraph.Proofs.Program.NulFiles
import FlowGraph.Proofs.Program.TaskGraph

/-!
# The NUL character in projects

Python accepts no source file that holds NUL.  A project has one just if a text does that stands
in a docstring of its source files.  Every other text of a workflow or of its metadata reaches
them as a literal or in a comment, and is harmless there.

Main results:

- Theorem `Temporal.holdsNul_project_iff`: the texts that bring NUL into a Temporal project.
- Theorem `Airflow.holdsNul_project_iff`: the texts that bring NUL into an Airflow project.
- Theorem `project_holdsNul_iff`: both, and the comment line of every node stays on its line.
-/

namespace FlowGraph.Program

/-! ## Source files of a project -/

/-- Whether the file of a path is a source file of the generated language. -/
def isSourcePath (path : String) : Bool := ".py".toList.isSuffixOf path.toList

/-- Some source file of a project holds NUL. -/
def Project.HoldsNul (p : Project) : Prop :=
  ∃ f ∈ p.files, isSourcePath f.path = true ∧ holdsNul f.text = true

/-- The lines of the source files of a project decide whether it holds NUL. -/
theorem Project.holdsNul_iff {p : Project} {sources others : List SourceFile}
    (hfiles : p.files.Perm (sources ++ others))
    (hsources : (sources.map SourceFile.path).all isSourcePath = true)
    (hothers : (others.map SourceFile.path).any isSourcePath = false) :
    p.HoldsNul ↔ (sources.any fun f => f.lines.any holdsNul) = true := by
  rw [List.all_map, List.all_eq_true] at hsources
  rw [List.any_map, List.any_eq_false] at hothers
  simp only [HoldsNul, SourceFile.text, holdsNul_textOfLines, hfiles.mem_iff, List.mem_append]
  rw [List.any_eq_true]
  constructor
  · rintro ⟨f, hf | hf, hpath, hnul⟩
    · exact ⟨f, hf, hnul⟩
    · exact absurd hpath (hothers f hf)
  · rintro ⟨f, hf, hnul⟩
    exact ⟨f, .inl hf, hsources f hf, hnul⟩

/-- A text of a program that stands in its docstrings holds NUL: its name, its
description, or the type of a dispatched node. -/
def DocumentsNul (w : Workflow) (m : Metadata) : Prop :=
  holdsNul m.name = true ∨ holdsNul m.description = true ∨
    ∃ node ∈ w.nodes, Plan.isDispatched node = true ∧ holdsNul node.typeTag = true

/-- The types of the functions of a plan are those of the dispatched nodes. -/
theorem any_typeTag_code (w : Workflow) (defaults : RouterDefaults) :
    ((Plan.ofWorkflow w defaults).code.any fun a => holdsNul a.ref.typeTag) = true ↔
      ∃ node ∈ w.nodes, Plan.isDispatched node = true ∧ holdsNul node.typeTag = true := by
  have hnamed := Plan.namesActivities_ofWorkflow w defaults
  have htypes : ((Plan.ofWorkflow w defaults).code.any fun a => holdsNul a.ref.typeTag) =
      ((Plan.ofWorkflow w defaults).activities.map ActivityRef.typeTag).any holdsNul := by
    rw [Plan.code, List.any_map, List.any_map]
    rfl
  rw [htypes, List.any_eq_true]
  constructor
  · rintro ⟨typeTag, htag, hnul⟩
    obtain ⟨node, hnode, hdisabled, htrigger, rfl⟩ := (hnamed.mem_types_iff typeTag).mp htag
    exact ⟨node, hnode, (Plan.isDispatched_iff node).mpr ⟨hdisabled, htrigger⟩, hnul⟩
  · rintro ⟨node, hnode, hdispatched, hnul⟩
    obtain ⟨hdisabled, htrigger⟩ := (Plan.isDispatched_iff node).mp hdispatched
    exact ⟨_, (hnamed.mem_types_iff _).mpr ⟨node, hnode, hdisabled, htrigger, rfl⟩, hnul⟩

/-- A Temporal project holds NUL just if one of the texts in its docstrings does; the
task queue is one of them. -/
theorem Temporal.holdsNul_project_iff (w : Workflow) (defaults : RouterDefaults) (m : Metadata) :
    (project w defaults m).HoldsNul ↔ DocumentsNul w m ∨ holdsNul m.queue = true := by
  have hcode := fun a => Plan.nulFree_code w defaults (a := a)
  have hworkflow := any_workflowFile m w defaults
  rw [DocumentsNul, ← any_typeTag_code w defaults, project]
  generalize Plan.ofWorkflow w defaults = plan at *
  have hsources : ([workflowFile m plan, activitiesFile m plan.code, eventFile m,
      workerFile m plan.code, starterFile m].map SourceFile.path).all isSourcePath = true :=
    (by decide : ["workflow.py", "activities.py", "execution_logging.py", "worker.py",
      "starter.py"].all isSourcePath = true)
  have hothers : ([requirementsFile plan.code, imageFile m, containersFile m,
      settingsFile plan.code, descriptionFile m plan.code].map SourceFile.path).any
      isSourcePath = false :=
    (by decide : ["requirements.txt", "Dockerfile", "docker-compose.yml", ".env.example",
      "README.md"].any isSourcePath = false)
  refine (Project.holdsNul_iff (Project.files_ofFiles_perm _ _) hsources hothers).trans ?_
  simp only [List.any_cons, List.any_nil, hworkflow, any_activitiesFile m hcode, any_eventFile,
    any_workerFile m hcode, any_starterFile]
  cases holdsNul m.name <;> cases holdsNul m.description <;> cases holdsNul m.queue <;>
    cases (plan.code.any fun a => holdsNul a.ref.typeTag) <;> decide

/-- The modules of functions are source files. -/
theorem Airflow.all_isSourcePath_functionFile (code : List ActivityCode) :
    ((code.map functionFile).map SourceFile.path).all isSourcePath = true := by
  rw [List.map_map, List.all_map, List.all_eq_true]
  intro a _
  rw [Function.comp_apply, Function.comp_apply, functionFile, isSourcePath,
    List.isSuffixOf_iff_suffix, String.toList_append]
  exact List.suffix_append _ _

/-- The types of functions bring NUL into their modules. -/
theorem Airflow.any_functionFiles {code : List ActivityCode} (hcode : ∀ a ∈ code, a.NulFree) :
    ((code.map functionFile).any fun f => f.lines.any holdsNul) =
      code.any fun a => holdsNul a.ref.typeTag := by
  rw [List.any_map, Bool.eq_iff_iff, List.any_eq_true, List.any_eq_true]
  refine exists_congr fun a => and_congr_right fun ha => ?_
  rw [Function.comp_apply, any_functionFile (hcode a ha)]

/-- An Airflow project holds NUL just if one of the texts in its docstrings does. -/
theorem Airflow.holdsNul_project_iff {w : Workflow} {defaults : RouterDefaults} {m : Metadata}
    {p : Project} (hp : project w defaults m = .ok p) : p.HoldsNul ↔ DocumentsNul w m := by
  have hcode := fun a => Plan.nulFree_code w defaults (a := a)
  have hgraph := any_graphFile m (rfl : Plan.ofWorkflow w defaults = .ofWorkflow w defaults)
  obtain ⟨hfiles, -⟩ := project_eq_ok hp
  rw [DocumentsNul, ← any_typeTag_code w defaults]
  generalize Plan.ofWorkflow w defaults = plan at *
  have hswap : ([requirementsFile plan.code, descriptionFile m plan.code] ++
      plan.code.map functionFile).Perm _ := List.perm_append_comm
  have hsorted := hfiles.trans (hswap.append_left [graphFile m (tasksOf w plan) plan.code,
    packageFile m, sharedFile m])
  rw [← List.append_assoc] at hsorted
  have hsources : (([graphFile m (tasksOf w plan) plan.code, packageFile m,
      sharedFile m] ++ plan.code.map functionFile).map SourceFile.path).all isSourcePath = true := by
    rw [List.map_append, List.all_append, all_isSourcePath_functionFile, Bool.and_true]
    exact (by decide : ["dag.py", "tasks/__init__.py", "tasks/runtime.py"].all isSourcePath = true)
  have hothers : ([requirementsFile plan.code, descriptionFile m plan.code].map
      SourceFile.path).any isSourcePath = false :=
    (by decide : ["requirements.txt", "README.md"].any isSourcePath = false)
  rw [Project.holdsNul_iff hsorted hsources hothers, List.any_append, any_functionFiles hcode]
  simp only [List.any_cons, List.any_nil, hgraph, any_packageFile, any_sharedFile]
  cases holdsNul m.name <;> cases holdsNul m.description <;>
    cases (plan.code.any fun a => holdsNul a.ref.typeTag) <;> decide

/-! ### Comment lines -/

/-- A line is one of a source file of a project. -/
def Project.HasSourceLine (p : Project) (line : String) : Prop :=
  ∃ f ∈ p.files, isSourcePath f.path = true ∧ line ∈ f.lines

/-- The line about a node in front of its code. -/
def commentLine (node : Node) : String :=
  "    # " ++ comment (node.id ++ " (" ++ node.typeTag ++ ")")

theorem isControl_of_mem_commentLine {node : Node} {c : Char} (hc : c ∈ (commentLine node).toList) :
    Text.isControl c = false := by
  have hfixed : ("    # ".toList.all fun d => !Text.isControl d) = true := by decide
  rw [commentLine, String.toList_append] at hc
  rcases List.mem_append.mp hc with hmargin | hcomment
  · simpa using List.all_eq_true.mp hfixed c hmargin
  · exact isControl_of_mem_comment hcomment

/-- Every node has a step, at a place of its own. -/
theorem Plan.exists_mem_zipIdx_steps {w : Workflow} (defaults : RouterDefaults) {node : Node}
    (hnode : node ∈ w.nodes) :
    ∃ step index, (step, index) ∈ (ofWorkflow w defaults).steps.zipIdx ∧ step.node = node := by
  rw [← (namesActivities_ofWorkflow w defaults).nodes] at hnode
  obtain ⟨step, hstep, hnode⟩ := List.mem_map.mp hnode
  obtain ⟨index, hindex⟩ := List.mem_iff_getElem?.mp hstep
  exact ⟨step, index, List.mem_zipIdx_iff_getElem?.mpr hindex, hnode⟩

/-- A Temporal project has a comment line for every node. -/
theorem Temporal.hasSourceLine_commentLine {w : Workflow} (defaults : RouterDefaults)
    (m : Metadata) {node : Node} (hnode : node ∈ w.nodes) :
    (project w defaults m).HasSourceLine (commentLine node) := by
  obtain ⟨step, index, hstep, rfl⟩ := Plan.exists_mem_zipIdx_steps defaults hnode
  have hfile : workflowFile m (.ofWorkflow w defaults) ∈ (project w defaults m).files :=
    (Project.files_ofFiles_perm _ _).mem_iff.mpr List.mem_cons_self
  refine ⟨_, hfile, (by decide : isSourcePath "workflow.py" = true), ?_⟩
  refine List.mem_append_right _ (List.mem_flatMap.mpr ⟨_, hstep, ?_⟩)
  simp [stepLines, commentLine]

/-- An Airflow project has a comment line for every node. -/
theorem Airflow.hasSourceLine_commentLine {w : Workflow} {defaults : RouterDefaults}
    {m : Metadata} {p : Project} (hp : project w defaults m = .ok p) {node : Node}
    (hnode : node ∈ w.nodes) : p.HasSourceLine (commentLine node) := by
  rw [← map_node_planTasks w defaults] at hnode
  obtain ⟨t, ht, rfl⟩ := List.mem_map.mp hnode
  obtain ⟨hfiles, -⟩ := project_eq_ok hp
  refine ⟨_, hfiles.mem_iff.mpr List.mem_cons_self, (by decide : isSourcePath "dag.py" = true), ?_⟩
  have hcomment : commentLine t.node ∈ t.lines := by
    simp [Task.lines, commentLine]
  have hdrawn : commentLine t.node ∈ if (tasksOf w (.ofWorkflow w defaults)).isEmpty then
      ["    pass"] else (tasksOf w (.ofWorkflow w defaults)).flatMap Task.lines := by
    rw [if_neg fun hempty => List.ne_nil_of_mem ht (List.isEmpty_iff.mp hempty)]
    exact List.mem_flatMap.mpr ⟨t, ht, hcomment⟩
  exact List.mem_append_left _ (List.mem_append_right _ hdrawn)

/-! ## Every text -/

/-- What free text does to the source files of a project.  Such a file holds NUL just if a
text that stands in its docstrings does: the name, the description, the type of a dispatched
node, or the task queue of a Temporal project.  Every other text may hold what it likes: node
ids and display names, labels, parameters, and the types of other nodes bring no NUL.  The
comment line of every node is a line of a source file and has no control character, which a
line feed would be. -/
theorem project_holdsNul_iff (w : Workflow) (defaults : RouterDefaults) (m : Metadata) :
    ((Temporal.project w defaults m).HoldsNul ↔ DocumentsNul w m ∨ holdsNul m.queue = true) ∧
    (∀ p, Airflow.project w defaults m = .ok p → (p.HoldsNul ↔ DocumentsNul w m)) ∧
    ∀ node ∈ w.nodes,
      (∀ c ∈ (commentLine node).toList, Text.isControl c = false) ∧
      (Temporal.project w defaults m).HasSourceLine (commentLine node) ∧
      ∀ p, Airflow.project w defaults m = .ok p → p.HasSourceLine (commentLine node) :=
  ⟨Temporal.holdsNul_project_iff w defaults m, fun _ => Airflow.holdsNul_project_iff,
    fun _ hnode => ⟨fun _ => isControl_of_mem_commentLine,
      Temporal.hasSourceLine_commentLine defaults m hnode,
      fun _ hp => Airflow.hasSourceLine_commentLine hp hnode⟩⟩

/-- A node whose id has NUL and a line feed. -/
def brokenId : Workflow :=
  .ofSound { nodes := [.new "a\x00\nb" "twiddle.noOp"] }
    ((Definition.violations_eq_nil_iff _).2 (by decide))

/-- The id brings no NUL into a project and its comment stays on its line; a name brings NUL
into both. -/
theorem project_holdsNul_iff_brokenId :
    ¬ (Temporal.project brokenId {} ⟨"w", "", none⟩).HoldsNul ∧
      ∃ p, Airflow.project brokenId {} ⟨"w\x00", "", none⟩ = .ok p ∧ p.HoldsNul ∧
        p.HasSourceLine "    # a  b (twiddle.noOp)" := by
  obtain ⟨hquiet, -, -⟩ := project_holdsNul_iff brokenId {} ⟨"w", "", none⟩
  obtain ⟨-, hnamed, hlines⟩ := project_holdsNul_iff brokenId {} ⟨"w\x00", "", none⟩
  have hacyclic : brokenId.Acyclic := Workflow.acyclic_of_rank (fun _ => 0) (by decide)
  have hproject : ∃ p, Airflow.project brokenId {} ⟨"w\x00", "", none⟩ = .ok p := by
    rw [Airflow.project, Workflow.findCycle_of_acyclic hacyclic]
    exact ⟨_, rfl⟩
  obtain ⟨p, hp⟩ := hproject
  obtain ⟨-, -, hline⟩ := hlines (.new "a\x00\nb" "twiddle.noOp") List.mem_cons_self
  refine ⟨fun hnul => ?_, p, hp, (hnamed p hp).mpr (.inl (by decide)), hline p hp⟩
  rcases hquiet.mp hnul with hdocuments | hqueue
  · have hnone : ¬ DocumentsNul brokenId ⟨"w", "", none⟩ := by
      unfold DocumentsNul
      decide
    exact hnone hdocuments
  · have hdefault : holdsNul (Metadata.queue ⟨"w", "", none⟩) = false :=
      holdsNul_workflowIdentifier "w"
    exact Bool.false_ne_true (hdefault.symm.trans hqueue)

/-- A program named with NUL has a starter whose docstring holds it. -/
theorem project_holdsNul_named :
    (Temporal.project brokenId {} ⟨"w\x00", "", none⟩).HoldsNul := by
  have hfile : Temporal.starterFile ⟨"w\x00", "", none⟩ ∈
      (Temporal.project brokenId {} ⟨"w\x00", "", none⟩).files :=
    (Project.files_ofFiles_perm _ _).mem_iff.mpr (by simp)
  refine ⟨_, hfile, (by decide : isSourcePath "starter.py" = true), ?_⟩
  rw [SourceFile.text, holdsNul_textOfLines, Temporal.any_starterFile]
  decide

end FlowGraph.Program
