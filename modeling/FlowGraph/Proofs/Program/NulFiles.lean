import FlowGraph.Program.Airflow.Project
import FlowGraph.Program.Temporal.Project
import FlowGraph.Proofs.Program.Activities
import FlowGraph.Proofs.Program.NulText

/-!
# The NUL character in source files

Each file of a project is looked at line by line.  Fixed lines hold no NUL, and neither do the
lines about a step, a task or a function, whatever stands in a node: its texts are literals or
comments there.  What is left are the docstrings, which keep the name, the description, the task
queue and the type that a function serves as they are.

Main results:

- Theorem `Plan.nulFree_code`: only the type of a function brings NUL into the lines about it.
- Theorem `Temporal.any_workflowFile`: the name, the description and the task queue bring NUL
  into a workflow file.
- Theorem `Temporal.any_activitiesFile`: the name and the types of functions bring it into a file
  of functions.
- Theorem `Airflow.any_graphFile`: the name and the description bring it into a graph file.
- Theorem `Airflow.any_functionFile`: the type of a function brings it into its module.
-/

namespace FlowGraph.Program

/-! ## Fixed lines -/

namespace PayloadHelpers

theorem any_holdsNul_parts : objects.any holdsNul = false ∧ paths.any holdsNul = false ∧
    comparison.any holdsNul = false ∧ conditions.any holdsNul = false ∧
    branchLabel.any holdsNul = false := by
  refine ⟨?_, ?_, ?_, ?_, ?_⟩
  all_goals
    simp only [objects, paths, comparison, conditions, branchLabel, List.any_cons, List.any_nil,
      holdsNul_append]
    repeat rewrite [holdsNul_ofList]
    decide

/-- No helper function holds NUL. -/
theorem any_holdsNul_lines : lines.any holdsNul = false := by
  obtain ⟨hobjects, hpaths, hcomparison, hconditions, -⟩ := any_holdsNul_parts
  simp only [lines, List.any_append, hobjects, hpaths, hcomparison, hconditions, Bool.or_false]

end PayloadHelpers

namespace Snippet

/-- No body holds NUL. -/
theorem any_holdsNul_snippets : ∀ s ∈ placeholder :: library.map Prod.snd,
    (s.body ++ s.imports).any holdsNul = false := by
  simp only [library, List.map_cons, List.map_nil, List.forall_mem_cons]
  refine ⟨?_, ?_, ?_, ?_, ?_, ?_, ?_, ?_, ?_, by simp⟩
  all_goals
    simp only [placeholder, httpRequest, postgres, ssh, set, noOp, ifRouter, switchRouter, wait,
      List.any_cons, List.any_nil, List.any_append, holdsNul_append]
    repeat rewrite [holdsNul_ofList]
    decide

end Snippet

/-! ## Functions -/

/-- Only the type of a function brings NUL into the lines about it. -/
structure ActivityCode.NulFree (a : ActivityCode) : Prop where
  function : holdsNul a.ref.function = false
  body : a.body.any holdsNul = false
  imports : a.imports.any holdsNul = false

/-- The functions of a plan are such. -/
theorem Plan.nulFree_code (w : Workflow) (defaults : RouterDefaults) {a : ActivityCode}
    (ha : a ∈ (Plan.ofWorkflow w defaults).code) : a.NulFree := by
  obtain ⟨ref, href, rfl⟩ := List.mem_map.mp ha
  have hname := ((namesActivities_ofWorkflow w defaults).wellFormed ref href).1
  have hsnippet : (Snippet.ofType? ref.typeTag).getD .placeholder ∈
      Snippet.placeholder :: Snippet.library.map Prod.snd := by
    cases hfound : Snippet.ofType? ref.typeTag with
    | none => exact List.mem_cons_self
    | some snippet =>
        refine List.mem_cons_of_mem _ (List.mem_map.mpr ⟨(ref.typeTag, snippet), ?_, rfl⟩)
        exact mem_of_lookup_eq_some hfound
  have hlines := Snippet.any_holdsNul_snippets _ hsnippet
  rw [List.any_append, Bool.or_eq_false_iff] at hlines
  exact ⟨hname.holdsNul_eq_false, hlines.1, hlines.2⟩

/-- The function that a step calls has a name without NUL. -/
theorem Plan.holdsNul_of_role {w : Workflow} {defaults : RouterDefaults} {step : Step}
    (hstep : step ∈ (Plan.ofWorkflow w defaults).steps) {function : String}
    (hrole : step.role = .activity function) : holdsNul function = false := by
  have hnamed := namesActivities_ofWorkflow w defaults
  exact (hnamed.wellFormed _ (hnamed.listed step hstep function hrole)).1.holdsNul_eq_false

/-- The docstring of a function names its type. -/
theorem ActivityCode.holdsNul_doc (a : ActivityCode) :
    holdsNul a.doc = holdsNul a.ref.typeTag := by
  unfold doc
  split
  all_goals
    simp only [holdsNul_docstring, holdsNul_append]
    repeat rewrite [holdsNul_ofList]
    cases holdsNul a.ref.typeTag <;> decide

theorem ActivityCode.NulFree.any_definitionLines {a : ActivityCode} (ha : a.NulFree) :
    a.definitionLines.any holdsNul = holdsNul a.ref.typeTag := by
  simp only [definitionLines, List.any_append, List.any_cons, List.any_nil, holdsNul_append,
    ha.function, ha.body, a.holdsNul_doc]
  repeat rewrite [holdsNul_ofList]
  cases holdsNul a.ref.typeTag <;> decide

/-- The imports of functions hold no NUL. -/
theorem any_mergedImports {code : List ActivityCode} (hcode : ∀ a ∈ code, a.NulFree) :
    (mergedImports code).any holdsNul = false := by
  rw [List.any_eq_false]
  intro line hline
  rw [mergedImports, sortedDistinct, List.mem_mergeSort, List.mem_eraseDups, List.mem_cons,
    List.mem_flatMap] at hline
  rcases hline with rfl | ⟨a, ha, hline⟩
  · rewrite [holdsNul_ofList]
    decide
  · exact List.any_eq_false.mp (hcode a ha).imports line hline

/-- The name and the description stand in the docstrings of a program. -/
theorem Metadata.any_docstringLines (m : Metadata) :
    m.docstringLines.any holdsNul = (holdsNul m.name || holdsNul m.description) := by
  unfold docstringLines
  split
  next hempty =>
    rw [String.isEmpty_iff.mp hempty, List.any_cons, List.any_nil, holdsNul_docstring]
    congr 1
  next =>
    simp only [List.any_cons, List.any_nil, holdsNul_docstring]
    rewrite [holdsNul_ofList]
    simp

namespace Temporal

theorem any_holdsNul_fixed : eventRecords.any holdsNul = false ∧
    eventSummary.any holdsNul = false ∧ eventLogger.any holdsNul = false ∧
    eventWrapper.any holdsNul = false ∧ runMethod.any holdsNul = false ∧
    controlMethods.any holdsNul = false ∧ recordMethod.any holdsNul = false := by
  refine ⟨?_, ?_, ?_, ?_, ?_, ?_, ?_⟩
  all_goals
    simp only [eventRecords, eventSummary, eventLogger, eventWrapper, runMethod, controlMethods,
      recordMethod, List.any_cons, List.any_nil, holdsNul_append]
    repeat rewrite [holdsNul_ofList]
    decide

/-- The import of all functions names them only. -/
theorem any_functionImports {margin : String} {code : List ActivityCode}
    (hmargin : holdsNul margin = false) (hcode : ∀ a ∈ code, a.NulFree) :
    (functionImports margin code).any holdsNul = false := by
  unfold functionImports
  split
  next => rfl
  next =>
    have hnames : (code.map fun a => margin ++ "    " ++ a.ref.function ++ ",").any holdsNul =
        false := by
      refine any_holdsNul_map fun a ha => ?_
      simp only [holdsNul_append, hmargin, (hcode a ha).function]
      repeat rewrite [holdsNul_ofList]
      decide
    simp only [List.any_append, List.any_cons, List.any_nil, holdsNul_append, hmargin, hnames]
    repeat rewrite [holdsNul_ofList]
    decide

/-- The name and the types of the functions stand in docstrings of the file of functions. -/
theorem any_activitiesFile (m : Metadata) {code : List ActivityCode}
    (hcode : ∀ a ∈ code, a.NulFree) :
    (activitiesFile m code).lines.any holdsNul =
      (holdsNul m.name || code.any fun a => holdsNul a.ref.typeTag) := by
  have hfunctions : (code.flatMap fun a =>
      ["", "", "@activity.defn(name=\"" ++ a.ref.function ++ "\")", "@with_execution_logging"] ++
        a.definitionLines).any holdsNul = code.any fun a => holdsNul a.ref.typeTag := by
    rw [List.any_flatMap, Bool.eq_iff_iff, List.any_eq_true, List.any_eq_true]
    refine exists_congr fun a => and_congr_right fun ha => ?_
    simp only [List.any_append, List.any_cons, List.any_nil, holdsNul_append,
      (hcode a ha).function, (hcode a ha).any_definitionLines]
    repeat rewrite [holdsNul_ofList]
    cases holdsNul a.ref.typeTag <;> decide
  simp only [activitiesFile, List.any_append, List.any_cons, List.any_nil, holdsNul_append,
    holdsNul_docstring, PayloadHelpers.any_holdsNul_lines, any_mergedImports hcode, hfunctions]
  repeat rewrite [holdsNul_ofList]
  cases holdsNul m.name <;> cases (code.any fun a => holdsNul a.ref.typeTag) <;> decide

/-- The name stands in a docstring of the event file. -/
theorem any_eventFile (m : Metadata) : (eventFile m).lines.any holdsNul = holdsNul m.name := by
  obtain ⟨hrecords, hsummary, hlogger, hwrapper, -⟩ := any_holdsNul_fixed
  simp only [eventFile, List.any_append, hrecords, hsummary, hlogger, hwrapper, eventPreamble,
    List.any_cons, List.any_nil, holdsNul_append, holdsNul_docstring]
  repeat rewrite [holdsNul_ofList]
  cases holdsNul m.name <;> decide

/-- The name and the queue stand in a docstring of the worker file. -/
theorem any_workerFile (m : Metadata) {code : List ActivityCode}
    (hcode : ∀ a ∈ code, a.NulFree) :
    (workerFile m code).lines.any holdsNul = (holdsNul m.name || holdsNul m.queue) := by
  have hnames : (code.map fun a => "            " ++ a.ref.function ++ ",").any holdsNul =
      false := by
    refine any_holdsNul_map fun a ha => ?_
    simp only [holdsNul_append, (hcode a ha).function]
    repeat rewrite [holdsNul_ofList]
    decide
  have himports : (functionImports "" code).any holdsNul = false :=
    any_functionImports (holdsNul_ofList []) hcode
  simp only [workerFile, List.any_append, List.any_cons, List.any_nil, holdsNul_append,
    holdsNul_docstring, holdsNul_className, Literal.holdsNul_string, himports, hnames]
  repeat rewrite [holdsNul_ofList]
  cases holdsNul m.name <;> cases holdsNul m.queue <;> decide

/-- The name stands in a docstring of the starter file. -/
theorem any_starterFile (m : Metadata) : (starterFile m).lines.any holdsNul = holdsNul m.name := by
  simp only [starterFile, List.any_cons, List.any_nil, holdsNul_append, holdsNul_docstring,
    holdsNul_className, Literal.holdsNul_string, Metadata.identifier, holdsNul_workflowIdentifier]
  repeat rewrite [holdsNul_ofList]
  cases holdsNul m.name <;> decide

/-! ### The workflow file -/

@[simp]
theorem holdsNul_retryPolicy (p : RetryPolicy) : holdsNul (retryPolicy p) = false := by
  have hcoefficient : holdsNul (Decimal.Layout.setting.text p.backoffCoefficient) = false :=
    (Literal.numeric_layout (by decide) _).1.holdsNul_eq_false
  unfold retryPolicy
  dsimp only
  rewrite [holdsNul_append, holdsNul_append, holdsNul_intercalate (holdsNul_ofList [',', ' '])]
  · repeat rewrite [holdsNul_ofList]
    decide
  · split
    · split
      all_goals
        simp only [List.any_append, List.any_cons, List.any_nil, holdsNul_append,
          holdsNul_duration, holdsNul_toString, hcoefficient]
        repeat rewrite [holdsNul_ofList]
        decide
    · simp only [List.any_cons, List.any_nil, holdsNul_append, holdsNul_toString]
      rewrite [holdsNul_ofList]
      decide

/-- The record of a node holds no NUL, whatever the node. -/
theorem holdsNul_recordCall (node : Node) (status further : String) :
    holdsNul (recordCall node status further) = (holdsNul status || holdsNul further) := by
  have harguments : holdsNul (nodeArguments node) = false :=
    holdsNul_intercalate (holdsNul_ofList [',', ' ']) (by simp)
  unfold recordCall
  simp only [holdsNul_append, harguments]
  repeat rewrite [holdsNul_ofList]
  cases holdsNul status <;> cases holdsNul further <;> decide

theorem holdsNul_handOn (index : Nat) (payload output : String) :
    holdsNul (handOn index payload output) = (holdsNul payload || holdsNul output) := by
  unfold handOn
  simp only [holdsNul_append, holdsNul_toString]
  repeat rewrite [holdsNul_ofList]
  cases holdsNul payload <;> cases holdsNul output <;> decide

theorem any_limitLine {key : String} (hkey : holdsNul key = false) (seconds : UInt64) :
    (limitLine key seconds).any holdsNul = false := by
  unfold limitLine
  split
  next => rfl
  next =>
    simp only [List.any_cons, List.any_nil, holdsNul_append, holdsNul_duration, hkey]
    repeat rewrite [holdsNul_ofList]
    decide

theorem any_callLines (node : Node) {function : String} (hfunction : holdsNul function = false) :
    (callLines node function).any holdsNul = false := by
  have hwhole : holdsNul "schedule_to_close_timeout" = false := by
    rewrite [holdsNul_ofList]
    decide
  have hbeat : holdsNul "heartbeat_timeout" = false := by
    rewrite [holdsNul_ofList]
    decide
  simp only [callLines, List.any_append, List.any_cons, List.any_nil, holdsNul_append,
    holdsNul_duration, holdsNul_retryPolicy, Literal.holdsNul_string, Literal.holdsNul_value,
    any_limitLine hwhole, any_limitLine hbeat, hfunction]
  repeat rewrite [holdsNul_ofList]
  decide

theorem any_failureLines (index : Nat) (node : Node) :
    (failureLines index node).any holdsNul = false := by
  unfold failureLines
  split
  all_goals
    simp only [List.any_append, List.any_cons, List.any_nil, holdsNul_append, holdsNul_recordCall,
      holdsNul_handOn, Literal.holdsNul_string]
    repeat rewrite [holdsNul_ofList]
    decide

theorem any_roleLines (index : Nat) {step : Step}
    (hstep : ∀ function, step.role = .activity function → holdsNul function = false) :
    (roleLines index step).any holdsNul = false := by
  unfold roleLines
  split
  next =>
    simp only [List.any_cons, List.any_nil, holdsNul_append, holdsNul_recordCall, holdsNul_handOn]
    repeat rewrite [holdsNul_ofList]
    decide
  next =>
    simp only [List.any_cons, List.any_nil, holdsNul_append, holdsNul_recordCall, holdsNul_handOn]
    repeat rewrite [holdsNul_ofList]
    decide
  next function hrole =>
    simp only [List.any_append, List.any_cons, List.any_nil, holdsNul_append, holdsNul_recordCall,
      holdsNul_handOn, any_callLines _ (hstep function hrole), any_failureLines]
    repeat rewrite [holdsNul_ofList]
    decide

theorem any_successorLines (successors : Successors) :
    (successorLines successors).any holdsNul = false := by
  unfold successorLines
  split
  next =>
    simp only [List.any_cons, List.any_nil, holdsNul_append, Literal.holdsNul_strings]
    repeat rewrite [holdsNul_ofList]
    decide
  next branches label =>
    have hbranches : (branches.flatMap fun branch =>
        ["        if branch == " ++ Literal.string branch.label ++ ":",
         "            return " ++ Literal.strings branch.targets]).any holdsNul = false := by
      refine any_holdsNul_flatMap fun branch _ => ?_
      simp only [List.any_cons, List.any_nil, holdsNul_append, Literal.holdsNul_string,
        Literal.holdsNul_strings]
      repeat rewrite [holdsNul_ofList]
      decide
    simp only [List.any_append, List.any_cons, List.any_nil, holdsNul_append,
      Literal.holdsNul_string, hbranches]
    repeat rewrite [holdsNul_ofList]
    decide

/-- The methods of a step hold no NUL, whatever its node. -/
theorem any_stepLines (index : Nat) {step : Step}
    (hstep : ∀ function, step.role = .activity function → holdsNul function = false) :
    (stepLines index step).any holdsNul = false := by
  simp only [stepLines, List.any_append, List.any_cons, List.any_nil, holdsNul_append,
    holdsNul_comment, holdsNul_toString, any_roleLines index hstep, any_successorLines]
  repeat rewrite [holdsNul_ofList]
  decide

theorem any_preamble (m : Metadata) {code : List ActivityCode} (hcode : ∀ a ∈ code, a.NulFree) :
    (preamble m code).any holdsNul =
      (holdsNul m.name || holdsNul m.description || holdsNul m.queue) := by
  have hmargin : holdsNul "    " = false := by
    rewrite [holdsNul_ofList]
    decide
  simp only [preamble, List.any_append, List.any_cons, List.any_nil, holdsNul_append,
    holdsNul_docstring, m.any_docstringLines, any_functionImports hmargin hcode]
  repeat rewrite [holdsNul_ofList]
  cases holdsNul m.name <;> cases holdsNul m.description <;> cases holdsNul m.queue <;> decide

theorem any_classHead (m : Metadata) : (classHead m).any holdsNul = holdsNul m.name := by
  simp only [classHead, List.any_cons, List.any_nil, holdsNul_append, holdsNul_docstring,
    holdsNul_className]
  repeat rewrite [holdsNul_ofList]
  cases holdsNul m.name <;> decide

/-- The name, the description and the queue stand in docstrings of the workflow file. -/
theorem any_workflowFile (m : Metadata) (w : Workflow) (defaults : RouterDefaults) :
    (workflowFile m (Plan.ofWorkflow w defaults)).lines.any holdsNul =
      (holdsNul m.name || holdsNul m.description || holdsNul m.queue) := by
  obtain ⟨-, -, -, -, hrun, hcontrol, hrecord⟩ := any_holdsNul_fixed
  obtain ⟨-, -, -, -, hlabel⟩ := PayloadHelpers.any_holdsNul_parts
  have hcode := fun a => Plan.nulFree_code w defaults (a := a)
  have htable : ((Plan.ofWorkflow w defaults).steps.zipIdx.map fun entry =>
      "            " ++ Literal.string entry.1.node.id ++ ": self._run_" ++ toString entry.2 ++
        ",").any holdsNul = false := by
    refine any_holdsNul_map fun entry _ => ?_
    simp only [holdsNul_append, Literal.holdsNul_string, holdsNul_toString]
    repeat rewrite [holdsNul_ofList]
    decide
  have hsteps : ((Plan.ofWorkflow w defaults).steps.zipIdx.flatMap fun entry =>
      stepLines entry.2 entry.1).any holdsNul = false := by
    refine any_holdsNul_flatMap fun entry hentry => any_stepLines entry.2 fun _ hrole => ?_
    exact Plan.holdsNul_of_role (List.fst_mem_of_mem_zipIdx hentry) hrole
  simp only [workflowFile, List.any_append, List.any_cons, List.any_nil, holdsNul_append,
    Literal.holdsNul_strings, any_preamble m hcode, any_classHead, hrun, hcontrol, hrecord, hlabel,
    htable, hsteps]
  repeat rewrite [holdsNul_ofList]
  cases holdsNul m.name <;> cases holdsNul m.description <;> cases holdsNul m.queue <;> decide

end Temporal

namespace Airflow

theorem any_holdsNul_fixed : payloadLines.any holdsNul = false ∧
    executeLines.any holdsNul = false ∧ entryLines.any holdsNul = false := by
  refine ⟨?_, ?_, ?_⟩
  all_goals
    simp only [payloadLines, executeLines, entryLines, List.any_cons, List.any_nil,
      holdsNul_append]
    repeat rewrite [holdsNul_ofList]
    decide

/-- The name stands in a docstring of the task package. -/
theorem any_packageFile (m : Metadata) : (packageFile m).lines.any holdsNul = holdsNul m.name := by
  obtain ⟨hpayload, hexecute, hentry⟩ := any_holdsNul_fixed
  obtain ⟨-, -, -, -, hlabel⟩ := PayloadHelpers.any_holdsNul_parts
  simp only [packageFile, packagePreamble, List.any_append, List.any_cons, List.any_nil,
    holdsNul_append, holdsNul_docstring, hpayload, hexecute, hentry, hlabel]
  repeat rewrite [holdsNul_ofList]
  cases holdsNul m.name <;> decide

/-- The name stands in a docstring of the shared file. -/
theorem any_sharedFile (m : Metadata) : (sharedFile m).lines.any holdsNul = holdsNul m.name := by
  simp only [sharedFile, List.any_append, List.any_cons, List.any_nil, holdsNul_append,
    holdsNul_docstring, PayloadHelpers.any_holdsNul_lines]
  repeat rewrite [holdsNul_ofList]
  cases holdsNul m.name <;> decide

/-- The type of a function stands in the docstrings of its module. -/
theorem any_functionFile {a : ActivityCode} (ha : a.NulFree) :
    (functionFile a).lines.any holdsNul = holdsNul a.ref.typeTag := by
  simp only [functionFile, List.any_append, List.any_cons, List.any_nil, a.holdsNul_doc,
    ha.imports, ha.any_definitionLines]
  repeat rewrite [holdsNul_ofList]
  cases holdsNul a.ref.typeTag <;> decide

/-! ### The graph file -/

namespace Task

theorem holdsNul_nameAt (index : Nat) : holdsNul (nameAt index) = false := by
  unfold nameAt
  rewrite [holdsNul_append, holdsNul_toString, holdsNul_ofList]
  decide

theorem any_branchLines (t : Task) : t.branchLines.any holdsNul = false := by
  unfold branchLines
  split
  next => rfl
  next =>
    simp only [List.any_cons, List.any_nil, holdsNul_append, Literal.holdsNul_value,
      Literal.holdsNul_string]
    repeat rewrite [holdsNul_ofList]
    decide

theorem any_retryLines (t : Task) : t.retryLines.any holdsNul = false := by
  unfold retryLines
  dsimp only
  split_ifs
  all_goals
    simp only [List.any_append, List.any_cons, List.any_nil, holdsNul_append, holdsNul_toString,
      holdsNul_duration]
    repeat rewrite [holdsNul_ofList]
    decide

/-- The declaration of a task holds no NUL, whatever its node. -/
theorem any_lines {t : Task}
    (ht : ∀ function, t.function = some function → holdsNul function = false) :
    t.lines.any holdsNul = false := by
  have hfunction : holdsNul (t.function.getD "None") = false := by
    cases hcalled : t.function with
    | none =>
        rewrite [Option.getD_none, holdsNul_ofList]
        decide
    | some function => exact ht function hcalled
  have hoperator : holdsNul t.operatorNames.1 = false ∧ holdsNul t.operatorNames.2 = false := by
    unfold operatorNames
    split
    all_goals
      dsimp only
      constructor
      all_goals
        rewrite [holdsNul_ofList]
        decide
  simp only [lines, varName, List.any_append, List.any_cons, List.any_nil, holdsNul_append,
    holdsNul_comment, holdsNul_nameAt, holdsNul_duration, hfunction, hoperator.1, hoperator.2,
    Literal.holdsNul_string, Literal.holdsNul_strings, Literal.holdsNul_value, t.any_branchLines,
    t.any_retryLines]
  repeat rewrite [holdsNul_ofList]
  decide

theorem any_dependencyLines (t : Task) : t.dependencyLines.any holdsNul = false := by
  unfold dependencyLines
  split
  next => rfl
  next =>
    have hnames : (t.followers.map nameAt).any holdsNul = false :=
      any_holdsNul_map fun index _ => holdsNul_nameAt index
    simp only [varName, List.any_cons, List.any_nil, holdsNul_append, holdsNul_nameAt,
      holdsNul_intercalate (holdsNul_ofList [',', ' ']) hnames]
    repeat rewrite [holdsNul_ofList]
    decide

end Task

theorem any_graphPreamble (m : Metadata) {code : List ActivityCode}
    (hcode : ∀ a ∈ code, a.NulFree) :
    (graphPreamble m code).any holdsNul = (holdsNul m.name || holdsNul m.description) := by
  have himports : (code.map fun a =>
      "from tasks." ++ a.ref.function ++ " import " ++ a.ref.function).any holdsNul = false := by
    refine any_holdsNul_map fun a ha => ?_
    simp only [holdsNul_append, (hcode a ha).function]
    repeat rewrite [holdsNul_ofList]
    decide
  simp only [graphPreamble, List.any_append, List.any_cons, List.any_nil, m.any_docstringLines,
    himports]
  repeat rewrite [holdsNul_ofList]
  cases holdsNul m.name <;> cases holdsNul m.description <;> decide

theorem any_graphHead (m : Metadata) : (graphHead m).any holdsNul = false := by
  simp only [graphHead, List.any_cons, List.any_nil, holdsNul_append, Literal.holdsNul_string]
  repeat rewrite [holdsNul_ofList]
  decide

/-- The name and the description stand in docstrings of the graph file. -/
theorem any_graphFile (m : Metadata) {w : Workflow} {defaults : RouterDefaults} {plan : Plan}
    (hplan : plan = .ofWorkflow w defaults) :
    (graphFile m (tasksOf w plan) plan.code).lines.any holdsNul =
      (holdsNul m.name || holdsNul m.description) := by
  have hpreamble : (graphPreamble m plan.code).any holdsNul = _ :=
    any_graphPreamble m fun a ha => Plan.nulFree_code w defaults (hplan ▸ ha)
  have htasks : ((tasksOf w plan).flatMap Task.lines).any holdsNul = false := by
    refine any_holdsNul_flatMap fun t ht => Task.any_lines fun function hfunction => ?_
    obtain ⟨⟨step, index⟩, hstep, rfl⟩ := List.mem_map.mp ht
    have hmem := List.fst_mem_of_mem_zipIdx hstep
    simp only [taskOf] at hfunction
    split at hfunction
    next hrole =>
      obtain rfl := Option.some.inj hfunction
      exact Plan.holdsNul_of_role (hplan ▸ hmem) hrole
    next => contradiction
  have hdependencies : ((tasksOf w plan).flatMap Task.dependencyLines).any holdsNul = false :=
    any_holdsNul_flatMap fun t _ => t.any_dependencyLines
  simp only [graphFile, List.any_append, hpreamble, any_graphHead]
  split_ifs
  all_goals
    simp only [List.any_cons, List.any_nil, htasks, hdependencies]
    repeat rewrite [holdsNul_ofList]
    cases holdsNul m.name <;> cases holdsNul m.description <;> decide

end Airflow

end FlowGraph.Program
