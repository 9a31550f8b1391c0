import FlowGraph.Program.Airflow.Task

/-!
# The graph file of an Airflow project

The file declares one operator for every task, and then which tasks follow which.

Current gaps:

- The file is text; how Airflow schedules its tasks is left out.
-/

namespace FlowGraph.Program.Airflow

namespace Task

/-- The operator of the task and what it calls first. -/
def operatorNames (t : Task) : String × String :=
  if t.branches.isSome then ("BranchPythonOperator", "choose_branches")
  else ("PythonOperator", "run_node")

/-- The branch table of a router. -/
def branchLines (t : Task) : List String :=
  match t.branches with
  | none => []
  | some table =>
    ["            branches=" ++ Literal.value table.toJson ++ ",",
     "            default_label=" ++ Literal.string table.default ++ ","]

/-- The delays between the tries of the task. -/
def retryLines (t : Task) : List String :=
  let retry := t.node.options.retry
  ["        retries=" ++ toString t.retries ++ ","] ++
  if t.retries = 0 then []
  else
    ["        retry_delay=" ++ duration retry.initialInterval ++ ","] ++
    (if t.growsDelay then ["        retry_exponential_backoff=True,"] else []) ++
    if retry.maximumInterval = 0 then []
    else ["        max_retry_delay=" ++ duration retry.maximumInterval ++ ","]

/-- The declaration of the task. -/
def lines (t : Task) : List String :=
  let (operator, entry) := t.operatorNames
  ["",
   "    # " ++ comment (t.node.id ++ " (" ++ t.node.typeTag ++ ")"),
   "    " ++ t.varName ++ " = " ++ operator ++ "(",
   "        task_id=" ++ Literal.string t.id ++ ",",
   "        python_callable=partial(",
   "            " ++ entry ++ ",",
   "            node=" ++ Literal.value t.nodeRecord ++ ",",
   "            activity_fn=" ++ t.function.getD "None" ++ ",",
   "            upstream=" ++ Literal.strings t.sources ++ ","] ++
  t.branchLines ++
  ["        ),",
   "        trigger_rule=JOIN_RULE,"] ++
  t.retryLines ++
  ["        execution_timeout=" ++ duration t.node.options.startToCloseTimeout ++ ",",
   "    )"]

/-- The tasks that follow the task. -/
def dependencyLines (t : Task) : List String :=
  if t.followers.isEmpty then []
  else
    ["    " ++ t.varName ++ " >> [" ++ ", ".intercalate (t.followers.map nameAt) ++ "]"]

end Task

/-- The docstring and the imports of the file. -/
def graphPreamble (m : Metadata) (code : List ActivityCode) : List String :=
  ["\"\"\""] ++ m.docstringLines ++
  ["",
   "Generated Airflow DAG. Each node runs as one task. Router nodes are branch",
   "operators that follow only the connections matching their branch label, and",
   "every task joins on \"none failed, at least one succeeded\" so a node reached",
   "through any live branch still runs exactly once.",
   "",
   "Trigger a run with a JSON conf; it becomes the payload of the first tasks.",
   "\"\"\"",
   "from datetime import datetime, timedelta",
   "from functools import partial",
   "",
   "from airflow import DAG",
   "from airflow.operators.python import BranchPythonOperator, PythonOperator",
   "",
   "from tasks import choose_branches, run_node"] ++
  code.map fun a => "from tasks." ++ a.ref.function ++ " import " ++ a.ref.function

/-- The graph up to its tasks. -/
def graphHead (m : Metadata) : List String :=
  ["",
   "DAG_ID = " ++ Literal.string m.identifier,
   "JOIN_RULE = \"none_failed_min_one_success\"",
   "",
   "default_args = \x7b",
   "    \"owner\": \"twiddle\",",
   "    \"depends_on_past\": False,",
   "    \"email_on_failure\": False,",
   "    \"email_on_retry\": False,",
   "\x7d",
   "",
   "with DAG(",
   "    dag_id=DAG_ID,",
   "    default_args=default_args,",
   "    description=" ++ Literal.string m.description ++ ",",
   "    schedule=None,",
   "    start_date=datetime(2024, 1, 1),",
   "    catchup=False,",
   "    tags=[\"twiddle\", \"generated\"],",
   ") as dag:"]

/-- The graph file. -/
def graphFile (m : Metadata) (tasks : List Task) (code : List ActivityCode) : SourceFile where
  path := "dag.py"
  lines :=
    let dependencies := tasks.flatMap Task.dependencyLines
    graphPreamble m code ++ graphHead m ++
    (if tasks.isEmpty then ["    pass"] else tasks.flatMap Task.lines) ++
    if dependencies.isEmpty then [] else "" :: dependencies

end FlowGraph.Program.Airflow
