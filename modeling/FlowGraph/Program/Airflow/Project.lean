import FlowGraph.Workflow.Cycle
import FlowGraph.Program.Airflow.GraphFile
import FlowGraph.Program.Airflow.TaskFiles

/-!
# Airflow projects

An Airflow project has a graph file, a task package with one module for every function, what is
needed to install it, and a description.  Only a workflow without a cycle has one.
-/

namespace FlowGraph.Program.Airflow

/-- Requirement lines of every Airflow project. -/
def baseRequirements : List String := ["apache-airflow>=2.7.0", "python-dotenv>=1.0.0"]

/-- The requirements of the project. -/
def requirementsFile (code : List ActivityCode) : SourceFile where
  path := "requirements.txt"
  lines := requirementLines baseRequirements code

/-- A function as a row of the table of files. -/
def functionRow (a : ActivityCode) : String :=
  "| `tasks/" ++ a.ref.function ++ ".py` | Activity for `" ++ a.ref.typeTag ++ "` nodes" ++
    a.placeholderNote ++ " |"

/-- The description of the project. -/
def descriptionFile (m : Metadata) (code : List ActivityCode) : SourceFile where
  path := "README.md"
  lines :=
    m.headingLines ++
    ["",
     "Generated Airflow DAG `" ++ m.identifier ++ "`.",
     "",
     "## Files",
     "",
     "| File | Purpose |",
     "| --- | --- |",
     "| `dag.py` | DAG definition, one task per node |",
     "| `tasks/__init__.py` | Task runtime: XCom payload passing and branch selection |",
     "| `tasks/runtime.py` | Helpers shared by the task modules |"] ++
    code.map functionRow ++
    ["",
     "## Running",
     "",
     "```bash",
     "pip install -r requirements.txt",
     "cp -r . $AIRFLOW_HOME/dags/" ++ m.identifier,
     "airflow dags trigger " ++ m.identifier ++ " --conf '\x7b\x7d'",
     "```",
     "",
     "Open the Airflow UI at http://localhost:8080 to enable and trigger the DAG.",
     "",
     "## Differences from the Temporal target",
     "",
     "- Each task reads the payload its upstream tasks pushed, so parallel branches",
     "  see their own payloads rather than one carried payload.",
     "- Retries use Airflow's exponential backoff; the node's backoff coefficient is",
     "  not applied. Schedule-to-close and heartbeat timeouts have no equivalent."]

/-- A node lies on a cycle, which an Airflow graph cannot have. -/
structure CycleFault where
  nodeId : String
deriving DecidableEq

/-- The fault in words. -/
def CycleFault.message (f : CycleFault) : String :=
  "an Airflow DAG cannot contain cycles, but node '" ++ f.nodeId ++ "' is on one"

/-- The Airflow project of a workflow. -/
def project (w : Workflow) (defaults : RouterDefaults) (m : Metadata) :
    Except CycleFault Project :=
  match w.findCycle with
  | some id => .error ⟨id⟩
  | none =>
    let plan := Plan.ofWorkflow w defaults
    let code := plan.code
    .ok <| .ofFiles
      ([graphFile m (tasksOf w plan) code, packageFile m, sharedFile m, requirementsFile code,
        descriptionFile m code] ++ code.map functionFile)
      code

end FlowGraph.Program.Airflow
