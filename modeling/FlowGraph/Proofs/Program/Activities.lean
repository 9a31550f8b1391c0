import FlowGraph.Program.Airflow.Project
import FlowGraph.Program.Temporal.Project
import FlowGraph.Proofs.Program.FunctionNames
import FlowGraph.Proofs.Workflow.Cycle

/-!
# The functions of a program

A plan lists one function for every type of node that a program dispatches.  The
list gives a function its name, every step calls its function by that name, and a
task graph has a module of that name.  This module shows that the three agree: no
type is listed twice or left out, no two functions or modules share a name, and
what a step calls is what the list defines for the type of its node.

Main results:

- Theorem `pairwise_firstUse`: dropping repeats keeps the order of first use.
- Theorem `namesActivities_ofWorkflow`: the functions that a plan lists and calls.
- Theorem `nodup_paths_project`: no file of a task graph stands in for another.
- Theorem `project_defines_activities`: the functions of both kinds of projects.
-/

namespace FlowGraph.Program

/-! ## The order of first use -/

section

variable {α β : Type} [DecidableEq β] (used : α → Bool) (key : α → β)

/-- The place of the first used element of a key. -/
def firstUse (xs : List α) (k : β) : Nat := xs.findIdx fun x => used x && key x = k

variable {used key}

/-- More elements after the first used one of a key do not change its place. -/
theorem firstUse_append_left {xs : List α} {k : β} (h : k ∈ (xs.filter used).map key)
    (ys : List α) :
    firstUse used key (xs ++ ys) k = firstUse used key xs k ∧
      firstUse used key xs k < xs.length := by
  obtain ⟨x, hx, rfl⟩ := List.mem_map.mp h
  obtain ⟨hmem, hused⟩ := List.mem_filter.mp hx
  have hlt : firstUse used key xs (key x) < xs.length :=
    List.findIdx_lt_length_of_exists ⟨x, hmem, by simp [hused]⟩
  refine ⟨?_, hlt⟩
  unfold firstUse at hlt ⊢
  rw [List.findIdx_append, if_pos hlt]

/-- A key without a used element so far comes later. -/
theorem firstUse_append_right {xs : List α} {k : β} (h : k ∉ (xs.filter used).map key)
    (ys : List α) : xs.length ≤ firstUse used key (xs ++ ys) k := by
  have hnone : ¬xs.findIdx (fun x => used x && key x = k) < xs.length := by
    rw [List.findIdx_lt_length]
    rintro ⟨x, hx, hfound⟩
    simp only [Bool.and_eq_true, decide_eq_true_eq] at hfound
    exact h (List.mem_map.mpr ⟨x, List.mem_filter.mpr ⟨hx, hfound.1⟩, hfound.2⟩)
  unfold firstUse
  rw [List.findIdx_append, if_neg hnone]
  omega

variable (used key)

/-- Dropping repeats keeps the order of first use. -/
theorem pairwise_firstUse (xs : List α) :
    ((xs.filter used).map key).eraseDups.Pairwise fun a b =>
      firstUse used key xs a < firstUse used key xs b := by
  induction xs using List.reverseRecOn with
  | nil => simp
  | append_singleton xs x ih =>
      have hold : ∀ k ∈ ((xs.filter used).map key).eraseDups,
          firstUse used key (xs ++ [x]) k = firstUse used key xs k ∧
            firstUse used key xs k < xs.length :=
        fun k hk => firstUse_append_left (List.mem_eraseDups.mp hk) [x]
      rw [List.filter_append, List.map_append, List.eraseDups_append, List.pairwise_append]
      refine ⟨?_, ?_, ?_⟩
      · refine ih.imp_of_mem fun ha hb hlt => ?_
        rw [(hold _ ha).1, (hold _ hb).1]
        exact hlt
      · -- at most one key is new
        by_cases hused : used x = true
        · by_cases hknown : key x ∈ (xs.filter used).map key <;>
            simp [List.removeAll, List.eraseDups_cons, hused, hknown]
        · simp [List.removeAll, hused]
      · intro a ha b hb
        have hnew := (List.mem_filter.mp (List.mem_eraseDups.mp hb)).2
        rw [(hold a ha).1]
        exact Nat.lt_of_lt_of_le (hold a ha).2 (firstUse_append_right (by simpa using hnew) [x])

end

/-! ## The functions of a plan -/

namespace Plan

/-- A plan lists the functions that its steps call: one for every type of an enabled
node that is no trigger, in order of first use, each under a name of its own. -/
structure NamesActivities (w : Workflow) (p : Plan) : Prop where
  mem_types_iff : ∀ typeTag, typeTag ∈ p.activities.map ActivityRef.typeTag ↔
    ∃ node ∈ w.nodes, node.disabled = false ∧
      (NodeKind.ofTag node.typeTag).isTrigger = false ∧ node.typeTag = typeTag
  nodup_types : (p.activities.map ActivityRef.typeTag).Nodup
  first_use : (p.activities.map ActivityRef.typeTag).Pairwise fun a b =>
    firstUse isDispatched Node.typeTag w.nodes a < firstUse isDispatched Node.typeTag w.nodes b
  nodes : p.steps.map Step.node = w.nodes
  calls_iff : ∀ step ∈ p.steps, (∃ function, step.role = .activity function) ↔
    step.node.disabled = false ∧ (NodeKind.ofTag step.node.typeTag).isTrigger = false
  listed : ∀ step ∈ p.steps, ∀ function, step.role = .activity function →
    ⟨step.node.typeTag, function⟩ ∈ p.activities
  nodup_functions : (p.activities.map ActivityRef.function).Nodup
  wellFormed : ∀ a ∈ p.activities, IsFunctionName a.function ∧ IsIdentifier a.function
  /-- The search for a name ends at the first candidate that no earlier function has. -/
  firstFree : ∀ before a after, p.activities = before ++ a :: after →
    ∃ k, 1 ≤ k ∧ k ≤ before.length + 1 ∧ a.function = candidate (functionName a.typeTag) k ∧
      a.function ∉ before.map ActivityRef.function ∧
      ∀ j, 1 ≤ j → j < k →
        candidate (functionName a.typeTag) j ∈ before.map ActivityRef.function

section

variable (nodes : List Node)

/-- The listed types are those of the dispatched nodes, without repeats. -/
theorem map_typeTag_activitiesOf :
    (activitiesOf nodes).map ActivityRef.typeTag =
      ((nodes.filter isDispatched).map Node.typeTag).eraseDups := by
  rw [activitiesOf, List.map_map]
  exact map_fst_assign functionName _

/-- The listed functions have the names that were given out. -/
theorem map_function_activitiesOf :
    (activitiesOf nodes).map ActivityRef.function =
      (assign functionName ((nodes.filter isDispatched).map Node.typeTag).eraseDups).map
        Prod.snd := by
  rw [activitiesOf, List.map_map]
  rfl

/-- No two listed functions have the same name. -/
theorem nodup_function_activitiesOf :
    ((activitiesOf nodes).map ActivityRef.function).Nodup := by
  rw [map_function_activitiesOf]
  exact nodup_names_assign functionName _

/-- Every type is listed once. -/
theorem nodup_typeTag_activitiesOf : ((activitiesOf nodes).map ActivityRef.typeTag).Nodup := by
  rw [map_typeTag_activitiesOf]
  exact nodup_eraseDups _

/-- Every function has the first candidate for its type that no earlier one has. -/
theorem firstFree_activitiesOf {before after : List ActivityRef} {a : ActivityRef}
    (h : activitiesOf nodes = before ++ a :: after) :
    ∃ k, 1 ≤ k ∧ k ≤ before.length + 1 ∧ a.function = candidate (functionName a.typeTag) k ∧
      a.function ∉ before.map ActivityRef.function ∧
      ∀ j, 1 ≤ j → j < k →
        candidate (functionName a.typeTag) j ∈ before.map ActivityRef.function := by
  obtain ⟨named, rest, hassign, rfl, hrest⟩ := List.map_eq_append_iff.mp h
  obtain ⟨entry, later, rfl, rfl, -⟩ := List.map_eq_cons_iff.mp hrest
  have hfunctions : (named.map fun e => (⟨e.1, e.2⟩ : ActivityRef)).map ActivityRef.function =
      named.map Prod.snd := by
    rw [List.map_map]
    rfl
  rw [hfunctions, List.length_map]
  exact firstFree_of_assign_eq functionName hassign

/-- The function of a listed type is found. -/
theorem listed_functionOf {typeTag : String}
    (h : typeTag ∈ (activitiesOf nodes).map ActivityRef.typeTag) :
    ⟨typeTag, functionOf (activitiesOf nodes) typeTag⟩ ∈ activitiesOf nodes := by
  obtain ⟨a, ha, rfl⟩ := List.mem_map.mp h
  have hfound : functionOf (activitiesOf nodes) a.typeTag = a.function := by
    rw [functionOf, find?_eq_some_of_nodup (nodup_typeTag_activitiesOf nodes) ha]
  rw [hfound]
  exact ha

end

/-- A node is dispatched if it is enabled and no trigger. -/
theorem isDispatched_iff (node : Node) :
    isDispatched node = true ↔
      node.disabled = false ∧ (NodeKind.ofTag node.typeTag).isTrigger = false := by
  simp [isDispatched]

/-- A dispatched node calls the function of its type, and no other node calls one. -/
theorem roleOf_eq_activity_iff (activities : List ActivityRef) (node : Node)
    (function : String) :
    roleOf activities node = .activity function ↔
      isDispatched node = true ∧ function = functionOf activities node.typeTag := by
  unfold roleOf isDispatched
  cases hdisabled : node.disabled with
  | true => simp
  | false =>
      cases htrigger : (NodeKind.ofTag node.typeTag).isTrigger with
      | true => simp
      | false => simp [eq_comm (a := function)]

/-- The plan of a workflow lists the functions that its steps call. -/
theorem namesActivities_ofWorkflow (w : Workflow) (defaults : RouterDefaults) :
    NamesActivities w (ofWorkflow w defaults) where
  mem_types_iff typeTag := by
    show typeTag ∈ (activitiesOf w.nodes).map ActivityRef.typeTag ↔ _
    rw [map_typeTag_activitiesOf, List.mem_eraseDups, List.mem_map]
    simp only [List.mem_filter, isDispatched_iff, and_assoc]
  nodup_types := nodup_typeTag_activitiesOf w.nodes
  first_use := by
    show ((activitiesOf w.nodes).map ActivityRef.typeTag).Pairwise _
    rw [map_typeTag_activitiesOf]
    exact pairwise_firstUse isDispatched Node.typeTag w.nodes
  nodes := by
    rw [ofWorkflow, List.map_map]
    exact List.map_id _
  calls_iff step hstep := by
    obtain ⟨node, -, rfl⟩ := List.mem_map.mp hstep
    simp [roleOf_eq_activity_iff, isDispatched_iff]
  listed step hstep function hrole := by
    obtain ⟨node, hnode, rfl⟩ := List.mem_map.mp hstep
    obtain ⟨hdispatched, rfl⟩ := (roleOf_eq_activity_iff _ _ _).mp hrole
    apply listed_functionOf
    rw [map_typeTag_activitiesOf, List.mem_eraseDups]
    exact List.mem_map_of_mem (List.mem_filter.mpr ⟨hnode, hdispatched⟩)
  nodup_functions := nodup_function_activitiesOf w.nodes
  wellFormed a ha := by
    obtain ⟨before, after, hsplit⟩ := List.append_of_mem ha
    obtain ⟨k, -, -, hname, -⟩ := firstFree_activitiesOf w.nodes hsplit
    have hwell : IsFunctionName a.function := by
      rw [hname]
      exact (isFunctionName_functionName a.typeTag).candidate k
    exact ⟨hwell, hwell.isIdentifier⟩
  firstFree _ _ _ := firstFree_activitiesOf w.nodes

end Plan

/-! ## The files of a project -/

/-- The placeholders are the listed types without a snippet, in the order of the list. -/
theorem placeholderTypes_code (p : Plan) :
    placeholderTypes p.code =
      (p.activities.map ActivityRef.typeTag).filter fun typeTag =>
        (Snippet.ofType? typeTag).isNone := by
  rw [placeholderTypes, Plan.code, List.filter_map, List.map_map, List.filter_map]
  rfl

/-- With distinct paths, a file is found under its own path. -/
theorem Project.file?_path {p : Project} (hpaths : (p.files.map SourceFile.path).Nodup)
    {f : SourceFile} (hf : f ∈ p.files) : p.file? f.path = some f :=
  find?_eq_some_of_nodup hpaths hf

namespace Airflow

/-- The files of every Airflow project. -/
def fixedPaths : List String :=
  ["dag.py", "tasks/__init__.py", "tasks/runtime.py", "requirements.txt", "README.md"]

/-- The module of a function. -/
def modulePath (a : ActivityRef) : String := "tasks/" ++ a.function ++ ".py"

/-- A project has the fixed files and one module for every function of a plan, all under paths
of their own.  The module defines the function, and the graph file imports it from there. -/
structure DefinesActivities (plan : Plan) (p : Project) : Prop where
  paths : (p.files.map SourceFile.path).Perm (fixedPaths ++ plan.activities.map modulePath)
  nodup_paths : (p.files.map SourceFile.path).Nodup
  modules : ∀ a ∈ plan.activities, p.file? (modulePath a) = some (functionFile (.ofRef a)) ∧
    "async def " ++ a.function ++ "(input: ActivityInput) -> Any:" ∈
      (functionFile (.ofRef a)).lines
  imports : ∃ f, p.file? "dag.py" = some f ∧ ∀ a ∈ plan.activities,
    "from tasks." ++ a.function ++ " import " ++ a.function ∈ f.lines

/-- Different functions have different modules. -/
theorem modulePath_injective {a b : ActivityRef} (h : modulePath a = modulePath b) :
    a.function = b.function := by
  have hchars := congrArg String.toList h
  simp only [modulePath, String.toList_append, List.append_assoc] at hchars
  exact String.toList_injective (List.append_cancel_right (List.append_cancel_left hchars))

/-- No module of a function is one of the fixed files. -/
theorem modulePath_not_mem_fixedPaths {a : ActivityRef} (h : IsFunctionName a.function) :
    modulePath a ∉ fixedPaths := by
  obtain ⟨cs, hname, -⟩ := h
  have hmodule : (modulePath a).toList.take 7 = "tasks/e".toList := by
    simp [modulePath, hname]
  have hfixed : fixedPaths.all (fun path => path.toList.take 7 ≠ "tasks/e".toList) = true := rfl
  intro hmem
  have hne := List.all_eq_true.mp hfixed _ hmem
  simp [hmodule] at hne

/-- The modules of well-formed functions of different names stand beside the fixed files. -/
theorem nodup_fixedPaths_append {activities : List ActivityRef}
    (hnames : (activities.map ActivityRef.function).Nodup)
    (hwell : ∀ a ∈ activities, IsFunctionName a.function) :
    (fixedPaths ++ activities.map modulePath).Nodup := by
  refine List.nodup_append.mpr ⟨by decide, ?_, ?_⟩
  · refine (List.nodup_map_iff_inj_on hnames.of_map).mpr fun a ha b hb h => ?_
    exact List.inj_on_of_nodup_map hnames ha hb (modulePath_injective h)
  · rintro path hpath other hother rfl
    obtain ⟨a, ha, rfl⟩ := List.mem_map.mp hother
    exact modulePath_not_mem_fixedPaths (hwell a ha) hpath

/-- The files and the placeholders of a project. -/
theorem project_eq_ok {w : Workflow} {defaults : RouterDefaults} {m : Metadata} {p : Project}
    (hp : project w defaults m = .ok p) :
    let plan := Plan.ofWorkflow w defaults
    p.files.Perm
        ([graphFile m (tasksOf w plan) plan.code, packageFile m, sharedFile m,
          requirementsFile plan.code, descriptionFile m plan.code] ++
            plan.code.map functionFile) ∧
      p.placeholders = placeholderTypes plan.code := by
  unfold project at hp
  split at hp
  · contradiction
  · obtain rfl := Except.ok.inj hp
    exact ⟨Project.files_ofFiles_perm _ _, rfl⟩

/-- The graph file imports every function from its module. -/
theorem import_mem_graphFile (m : Metadata) (tasks : List Task) {plan : Plan} {a : ActivityRef}
    (ha : a ∈ plan.activities) :
    "from tasks." ++ a.function ++ " import " ++ a.function ∈
      (graphFile m tasks plan.code).lines := by
  have himport : "from tasks." ++ a.function ++ " import " ++ a.function ∈
      graphPreamble m plan.code :=
    List.mem_append_right _ (List.mem_map.mpr ⟨.ofRef a, List.mem_map_of_mem ha, rfl⟩)
  simp only [graphFile, List.mem_append]
  exact .inl (.inl (.inl himport))

/-- The project of a workflow defines the functions of its plan. -/
theorem definesActivities_project {w : Workflow} {defaults : RouterDefaults} {m : Metadata}
    {p : Project} (hp : project w defaults m = .ok p) :
    DefinesActivities (Plan.ofWorkflow w defaults) p := by
  have hnamed := Plan.namesActivities_ofWorkflow w defaults
  obtain ⟨hfiles, -⟩ := project_eq_ok hp
  have hpaths := hfiles.map SourceFile.path
  rw [List.map_append, Plan.code, List.map_map, List.map_map] at hpaths
  have hnodup : (p.files.map SourceFile.path).Nodup :=
    hpaths.nodup_iff.mpr
      (nodup_fixedPaths_append hnamed.nodup_functions fun a ha => (hnamed.wellFormed a ha).1)
  have hgraph : graphFile m (tasksOf w (.ofWorkflow w defaults)) (Plan.ofWorkflow w defaults).code ∈
      p.files :=
    hfiles.mem_iff.mpr List.mem_cons_self
  refine ⟨hpaths, hnodup, fun a ha => ⟨?_, ?_⟩, _, Project.file?_path hnodup hgraph,
    fun a ha => import_mem_graphFile m _ ha⟩
  · refine Project.file?_path (f := functionFile (.ofRef a)) hnodup (hfiles.mem_iff.mpr ?_)
    exact List.mem_append_right _ (List.mem_map_of_mem (List.mem_map_of_mem ha))
  · exact List.mem_append_right _ List.mem_cons_self

end Airflow

/-- The functions of a program are named, defined and called in one way.  The plan of a workflow
lists one function for every type of an enabled node that is no trigger, and its steps call the
functions that it lists.  The placeholders of both kinds of projects are the listed types without a
snippet, and a task graph has a module of its own for every listed function. -/
theorem project_defines_activities (w : Workflow) (defaults : RouterDefaults) (m : Metadata) :
    let plan := Plan.ofWorkflow w defaults
    let unwritten := (plan.activities.map ActivityRef.typeTag).filter fun typeTag =>
      (Snippet.ofType? typeTag).isNone
    plan.NamesActivities w ∧ (Temporal.project w defaults m).placeholders = unwritten ∧
      ∀ p, Airflow.project w defaults m = .ok p →
        p.placeholders = unwritten ∧ Airflow.DefinesActivities plan p := by
  intro plan unwritten
  refine ⟨Plan.namesActivities_ofWorkflow w defaults, placeholderTypes_code plan, fun p hp => ?_⟩
  obtain ⟨-, hplaceholders⟩ := Airflow.project_eq_ok hp
  exact ⟨hplaceholders.trans (placeholderTypes_code plan), Airflow.definesActivities_project hp⟩

/-- Two types have the same last segment, and that of the third is what the name of the second
becomes when it is numbered. -/
def clashingTypes : Workflow :=
  .ofSound
    { nodes := [.new "first" "a.foo", .new "second" "b.foo", .new "third" "c.foo_2"] }
    ((Definition.violations_eq_nil_iff _).2 (by decide))

/-- The functions of the three types are told apart, and each has a module. -/
theorem project_defines_activities_clashingTypes :
    let plan := Plan.ofWorkflow clashingTypes {}
    plan.activities.map ActivityRef.function =
        ["execute_foo", "execute_foo_2", "execute_foo_2_2"] ∧
      ∃ p, Airflow.project clashingTypes {} ⟨"Clash", "", none⟩ = .ok p ∧
        p.placeholders = ["a.foo", "b.foo", "c.foo_2"] ∧ Airflow.DefinesActivities plan p := by
  intro plan
  have hacyclic : clashingTypes.Acyclic := Workflow.acyclic_of_rank (fun _ => 0) (by decide)
  have hproject : ∃ p, Airflow.project clashingTypes {} ⟨"Clash", "", none⟩ = .ok p := by
    rw [Airflow.project, Workflow.findCycle_of_acyclic hacyclic]
    exact ⟨_, rfl⟩
  obtain ⟨p, hp⟩ := hproject
  obtain ⟨-, -, hall⟩ := project_defines_activities clashingTypes {} ⟨"Clash", "", none⟩
  obtain ⟨hplaceholders, hdefines⟩ := hall p hp
  exact ⟨rfl, p, hp, hplaceholders, hdefines⟩

end FlowGraph.Program
