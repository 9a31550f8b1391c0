import FlowGraph.Program.PayloadHelpers
import FlowGraph.Program.Project

/-!
# The task package of an Airflow project

The package runs one node at a time: it finds the payload, calls the function of the node, hands
its output on and chooses branches.  Every function has a module of its own.
-/

namespace FlowGraph.Program.Airflow

/-- Imports and names of the package. -/
def packagePreamble (m : Metadata) : List String :=
  ["\"\"\"",
   "Task runtime for the " ++ docstring m.name ++ " DAG.",
   "",
   "`run_node` pulls the payload pushed by the task's upstream tasks (or the DAG run",
   "conf for first tasks), runs the node's activity, and pushes the result under the",
   "`payload` XCom key. Router nodes run through `choose_branches`, which also returns",
   "the downstream task ids their branch label selects.",
   "\"\"\"",
   "import asyncio",
   "import logging",
   "from typing import Any, Awaitable, Callable, Dict, List, Optional, Tuple",
   "",
   "from tasks.runtime import ActivityInput",
   "",
   "logger = logging.getLogger(__name__)",
   "",
   "PAYLOAD_KEY = \"payload\"",
   "",
   "Activity = Callable[[ActivityInput], Awaitable[Any]]",
   "",
   ""]

/-- Find the payload of a task. -/
def payloadLines : List String :=
  ["def _incoming_payload(upstream: List[str], context: Dict[str, Any]) -> Any:",
   "    if upstream:",
   "        pulled = context[\"ti\"].xcom_pull(task_ids=upstream, key=PAYLOAD_KEY) or []",
   "        for value in pulled:",
   "            if value is not None:",
   "                return value",
   "        return \x7b\x7d",
   "    conf = getattr(context.get(\"dag_run\"), \"conf\", None)",
   "    return dict(conf) if conf else \x7b\x7d",
   "",
   ""]

/-- Run one node. -/
def executeLines : List String :=
  ["def _execute(",
   "    node: Dict[str, Any],",
   "    activity_fn: Optional[Activity],",
   "    upstream: List[str],",
   "    context: Dict[str, Any],",
   ") -> Tuple[Any, bool]:",
   "    \"\"\"Run one node. Returns the output and whether the node failed and was skipped " ++
     "over.\"\"\"",
   "    ti = context[\"ti\"]",
   "    payload = _incoming_payload(upstream, context)",
   "    failed = False",
   "",
   "    if activity_fn is None:",
   "        logger.info(\"[%s] passing payload through\", node[\"name\"])",
   "        output = payload",
   "    else:",
   "        try:",
   "            output = asyncio.run(",
   "                activity_fn(",
   "                    ActivityInput(",
   "                        node_id=node[\"id\"],",
   "                        node_name=node[\"name\"],",
   "                        node_type=node[\"type\"],",
   "                        parameters=dict(node[\"parameters\"]),",
   "                        input_data=payload,",
   "                    )",
   "                )",
   "            )",
   "        except Exception:",
   "            last_attempt = ti.try_number > ti.max_tries",
   "            if not node[\"continue_on_fail\"] or not last_attempt:",
   "                raise",
   "            logger.exception(\"[%s] failed; continuing with the previous payload\", " ++
     "node[\"name\"])",
   "            output, failed = payload, True",
   "",
   "    ti.xcom_push(key=PAYLOAD_KEY, value=output)",
   "    return output, failed",
   "",
   ""]

/-- The two entries of the package. -/
def entryLines : List String :=
  ["def run_node(",
   "    node: Dict[str, Any],",
   "    activity_fn: Optional[Activity],",
   "    upstream: List[str],",
   "    **context: Any,",
   ") -> Any:",
   "    output, _ = _execute(node, activity_fn, upstream, context)",
   "    return output",
   "",
   "",
   "def choose_branches(",
   "    node: Dict[str, Any],",
   "    activity_fn: Optional[Activity],",
   "    upstream: List[str],",
   "    branches: Dict[str, List[str]],",
   "    default_label: str,",
   "    **context: Any,",
   ") -> List[str]:",
   "    output, failed = _execute(node, activity_fn, upstream, context)",
   "    label = (None if failed else _branch_label(output)) or default_label",
   "    selected = branches.get(label, [])",
   "    logger.info(\"[%s] branch %r selects %s\", node[\"name\"], label, selected)",
   "    return selected"]

/-- The package file. -/
def packageFile (m : Metadata) : SourceFile where
  path := "tasks/__init__.py"
  lines :=
    packagePreamble m ++ PayloadHelpers.branchLabel ++ ["", ""] ++ payloadLines ++ executeLines ++
      entryLines

/-- What the function modules share. -/
def sharedFile (m : Metadata) : SourceFile where
  path := "tasks/runtime.py"
  lines :=
    ["\"\"\"",
     "Shared helpers for the " ++ docstring m.name ++ " task modules.",
     "",
     "Task bodies are written against the same helpers as the Temporal activities;",
     "`activity` stands in for the Temporal activity module inside an Airflow task.",
     "\"\"\"",
     "import logging",
     "import os",
     "from dataclasses import dataclass, field",
     "from typing import Any, Dict, Optional",
     "",
     "",
     "@dataclass",
     "class ActivityInput:",
     "    \"\"\"Argument every task body receives.\"\"\"",
     "",
     "    node_id: str",
     "    node_name: str",
     "    node_type: str",
     "    parameters: Dict[str, Any] = field(default_factory=dict)",
     "    input_data: Any = None",
     "",
     "",
     "class _TaskActivity:",
     "    logger = logging.getLogger(\"tasks\")",
     "",
     "    @staticmethod",
     "    def heartbeat(*details: Any) -> None:",
     "        \"\"\"Airflow tracks liveness itself.\"\"\"",
     "",
     "",
     "activity = _TaskActivity()",
     "",
     ""] ++
    PayloadHelpers.lines

/-- The module of a function. -/
def functionFile (a : ActivityCode) : SourceFile where
  path := "tasks/" ++ a.ref.function ++ ".py"
  lines :=
    ["\"\"\"", a.doc, "\"\"\""] ++ a.imports ++
    ["from typing import Any",
     "",
     "from tasks.runtime import (",
     "    MISSING,",
     "    ActivityInput,",
     "    activity,",
     "    as_object,",
     "    evaluate_condition,",
     "    get_env,",
     "    loosely_equal,",
     "    resolve_field,",
     "    with_branch,",
     ")",
     "",
     ""] ++
    a.definitionLines

end FlowGraph.Program.Airflow
