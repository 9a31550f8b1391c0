import FlowGraph.Program.Literal
import FlowGraph.Program.PayloadHelpers
import FlowGraph.Program.Project

/-!
# The workflow file of a Temporal program

The workflow class has two methods for every node: one runs the node, the other names the nodes
that follow it.  The class walks the graph as a run does, with a queue and a set of ids done.

Current gaps:

- The file is text; what Temporal makes of it is left out, the replay of its plan excepted.
-/

namespace FlowGraph.Program.Temporal

/-- Import every function from the module of functions, each line behind a margin. -/
def functionImports (margin : String) (code : List ActivityCode) : List String :=
  if code.isEmpty then []
  else
    [margin ++ "from activities import ("] ++
      (code.map fun a => margin ++ "    " ++ a.ref.function ++ ",") ++ [margin ++ ")"]

/-- The retry policy of a node. -/
def retryPolicy (p : RetryPolicy) : String :=
  let attempts := "maximum_attempts=" ++ toString p.attempts
  let arguments :=
    if p.enabled then
      ["initial_interval=" ++ duration p.initialInterval,
       "backoff_coefficient=" ++ Decimal.Layout.setting.text p.backoffCoefficient,
       attempts] ++
      if p.maximumInterval = 0 then []
      else ["maximum_interval=" ++ duration p.maximumInterval]
    else [attempts]
  "RetryPolicy(" ++ ", ".intercalate arguments ++ ")"

/-! ## Steps -/

/-- The arguments by which a node is recorded. -/
def nodeArguments (node : Node) : String :=
  ", ".intercalate
    [Literal.string node.id, Literal.string node.displayName, Literal.string node.typeTag]

/-- Record a status of a node, with further arguments. -/
def recordCall (node : Node) (status further : String) : String :=
  "self._record(" ++ nodeArguments node ++ ", \"" ++ status ++ "\", started_at" ++ further ++ ")"

/-- Return a payload and the nodes that follow an output. -/
def handOn (index : Nat) (payload output : String) : String :=
  "return " ++ payload ++ ", self._next_" ++ toString index ++ "(" ++ output ++ ")"

/-- A limit that is set unless it is zero. -/
def limitLine (key : String) (seconds : UInt64) : List String :=
  if seconds = 0 then [] else ["                " ++ key ++ "=" ++ duration seconds ++ ","]

/-- Call the function of a node within its limits. -/
def callLines (node : Node) (function : String) : List String :=
  ["            output = await workflow.execute_activity(",
   "                " ++ function ++ ",",
   "                ActivityInput(",
   "                    node_id=" ++ Literal.string node.id ++ ",",
   "                    node_name=" ++ Literal.string node.displayName ++ ",",
   "                    node_type=" ++ Literal.string node.typeTag ++ ",",
   "                    parameters=" ++ Literal.value (.object node.parameters) ++ ",",
   "                    input_data=payload,",
   "                ),"] ++
  ["                start_to_close_timeout=" ++ duration node.options.startToCloseTimeout ++ ","] ++
  limitLine "schedule_to_close_timeout" node.options.scheduleToCloseTimeout ++
  limitLine "heartbeat_timeout" node.options.heartbeatTimeout ++
  ["                retry_policy=" ++ retryPolicy node.options.retry ++ ",",
   "            )"]

/-- What happens when the function of a node fails for good. -/
def failureLines (index : Nat) (node : Node) : List String :=
  ["        except ActivityError as err:",
   "            message = str(err.cause or err)",
   "            " ++ recordCall node "failed" ", error=message"] ++
  if node.options.continueOnFail then
    ["            workflow.logger.warning(\"Node %s failed, continuing: %s\", " ++
       Literal.string node.id ++ ", message)",
     "            " ++ handOn index "payload" "None"]
  else ["            raise"]

/-- Run a node by its role. -/
def roleLines (index : Nat) (step : Step) : List String :=
  match step.role with
  | .disabled =>
    ["        " ++ recordCall step.node "skipped" "",
     "        " ++ handOn index "payload" "None"]
  | .trigger =>
    ["        " ++ recordCall step.node "completed" ", output=payload",
     "        " ++ handOn index "payload" "payload"]
  | .activity function =>
    ["        try:"] ++ callLines step.node function ++ failureLines index step.node ++
    ["        " ++ recordCall step.node "completed" ", output=output",
     "        " ++ handOn index "output" "output"]

/-- Name the nodes that follow an output. -/
def successorLines (successors : Successors) : List String :=
  match successors with
  | .fanOut targets => ["        return " ++ Literal.strings targets]
  | .routed branches default =>
    ["        branch = _branch_label(output) or " ++ Literal.string default] ++
    (branches.flatMap fun branch =>
      ["        if branch == " ++ Literal.string branch.label ++ ":",
       "            return " ++ Literal.strings branch.targets]) ++
    ["        return []"]

/-- The two methods of a step. -/
def stepLines (index : Nat) (step : Step) : List String :=
  ["",
   "    # " ++ comment (step.node.id ++ " (" ++ step.node.typeTag ++ ")"),
   "    async def _run_" ++ toString index ++
     "(self, payload: Any) -> Tuple[Any, List[str]]:",
   "        started_at = workflow.now()"] ++
  roleLines index step ++
  ["",
   "    def _next_" ++ toString index ++ "(self, output: Any) -> List[str]:"] ++
  successorLines step.successors

/-! ## The class -/

/-- The docstring and the imports of the file. -/
def preamble (m : Metadata) (code : List ActivityCode) : List String :=
  ["\"\"\""] ++ m.docstringLines ++
  ["",
   "Generated Temporal workflow. Each node runs as a durable activity; the graph is",
   "walked with a FIFO queue and an executed-set, so every node runs at most once.",
   "",
   "Task queue: " ++ docstring m.queue,
   "\"\"\"",
   "from collections import deque",
   "from datetime import timedelta",
   "from typing import Any, Awaitable, Callable, Dict, List, Optional, Tuple",
   "",
   "from temporalio import workflow",
   "from temporalio.common import RetryPolicy",
   "from temporalio.exceptions import ActivityError",
   "",
   "with workflow.unsafe.imports_passed_through():",
   "    from execution_logging import ActivityInput"] ++
  functionImports "    " code

/-- The class up to the table of steps. -/
def classHead (m : Metadata) : List String :=
  ["@workflow.defn",
   "class " ++ className m.identifier ++ ":",
   "    \"\"\"" ++ docstring m.name ++ "\"\"\"",
   "",
   "    def __init__(self) -> None:",
   "        self._status = \"pending\"",
   "        self._current_node: Optional[str] = None",
   "        self._results: List[Dict[str, Any]] = []",
   "        self._paused = False",
   "        self._cancelled = False",
   "        self._steps: Dict[str, Callable[[Any], Awaitable[Tuple[Any, List[str]]]]] = \x7b"]

/-- Walk the graph. -/
def runMethod : List String :=
  ["        \x7d",
   "",
   "    @workflow.run",
   "    async def run(self, input_data: Optional[Dict[str, Any]] = None) -> Any:",
   "        payload: Any = input_data if input_data is not None else \x7b\x7d",
   "        queue = deque(START_NODES)",
   "        executed = set()",
   "        self._status = \"running\"",
   "        workflow.logger.info(\"Workflow started with %d start node(s)\", len(START_NODES))",
   "",
   "        try:",
   "            while queue:",
   "                if self._cancelled:",
   "                    break",
   "                node_id = queue.popleft()",
   "                if node_id in executed:",
   "                    continue",
   "                if self._paused:",
   "                    self._status = \"waiting\"",
   "                    self._current_node = node_id",
   "                    await workflow.wait_condition(lambda: not self._paused or " ++
     "self._cancelled)",
   "                    if self._cancelled:",
   "                        break",
   "                    self._status = \"running\"",
   "                step = self._steps.get(node_id)",
   "                if step is None:",
   "                    continue",
   "                self._current_node = node_id",
   "                payload, successors = await step(payload)",
   "                executed.add(node_id)",
   "                queue.extend(successors)",
   "        except Exception:",
   "            self._status = \"failed\"",
   "            self._current_node = None",
   "            raise",
   "",
   "        self._current_node = None",
   "        self._status = \"cancelled\" if self._cancelled else \"completed\"",
   "        workflow.logger.info(\"Workflow %s after %d node(s)\", self._status, len(executed))",
   "        return payload",
   ""]

/-- Answer signals and queries. -/
def controlMethods : List String :=
  ["    @workflow.signal",
   "    def cancel(self) -> None:",
   "        self._cancelled = True",
   "",
   "    @workflow.signal",
   "    def pause(self) -> None:",
   "        self._paused = True",
   "",
   "    @workflow.signal",
   "    def resume(self) -> None:",
   "        self._paused = False",
   "",
   "    @workflow.query",
   "    def get_status(self) -> str:",
   "        return self._status",
   "",
   "    @workflow.query",
   "    def get_results(self) -> List[Dict[str, Any]]:",
   "        return list(self._results)",
   "",
   "    @workflow.query",
   "    def get_current_node(self) -> Optional[str]:",
   "        return self._current_node",
   ""]

/-- Record the result of a node. -/
def recordMethod : List String :=
  ["    def _record(",
   "        self,",
   "        node_id: str,",
   "        node_name: str,",
   "        node_type: str,",
   "        status: str,",
   "        started_at: Any,",
   "        output: Any = None,",
   "        error: Optional[str] = None,",
   "    ) -> None:",
   "        result: Dict[str, Any] = \x7b",
   "            \"node_id\": node_id,",
   "            \"node_name\": node_name,",
   "            \"node_type\": node_type,",
   "            \"status\": status,",
   "            \"started_at\": started_at.isoformat(),",
   "            \"finished_at\": workflow.now().isoformat(),",
   "        \x7d",
   "        if output is not None:",
   "            result[\"output\"] = output",
   "        if error is not None:",
   "            result[\"error\"] = error",
   "        self._results.append(result)"]

/-- The workflow file. -/
def workflowFile (m : Metadata) (plan : Plan) : SourceFile where
  path := "workflow.py"
  lines :=
    preamble m plan.code ++
    ["", "START_NODES: List[str] = " ++ Literal.strings plan.starts, "", ""] ++
    PayloadHelpers.branchLabel ++ ["", ""] ++ classHead m ++
    (plan.steps.zipIdx.map fun (step, index) =>
      "            " ++ Literal.string step.node.id ++ ": self._run_" ++ toString index ++ ",") ++
    runMethod ++ controlMethods ++ recordMethod ++
    plan.steps.zipIdx.flatMap fun (step, index) => stepLines index step

end FlowGraph.Program.Temporal
