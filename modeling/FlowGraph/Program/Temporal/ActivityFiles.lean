import FlowGraph.Program.PayloadHelpers
import FlowGraph.Program.Project

/-!
# The function files of a Temporal program

One file holds the functions that the workflow calls, the other writes an event around every call.
-/

namespace FlowGraph.Program.Temporal

/-- The file of functions. -/
def activitiesFile (m : Metadata) (code : List ActivityCode) : SourceFile where
  path := "activities.py"
  lines :=
    ["\"\"\"",
     "Activity implementations for " ++ docstring m.name ++ ".",
     "",
     "Every activity receives an ActivityInput and returns the payload handed to the",
     "next node. Activities must be safe to retry: Temporal re-runs them according to",
     "the retry policy the workflow sets for each node.",
     "\"\"\""] ++
    mergedImports code ++
    ["from typing import Any, Dict, Optional",
     "",
     "from temporalio import activity",
     "",
     "from execution_logging import ActivityInput, with_execution_logging",
     ""] ++
    PayloadHelpers.lines ++
    code.flatMap fun a =>
      ["", "", "@activity.defn(name=\"" ++ a.ref.function ++ "\")", "@with_execution_logging"] ++
        a.definitionLines

/-! ## Events -/

/-- The docstring, the imports and the limits of the event file. -/
def eventPreamble (m : Metadata) : List String :=
  ["\"\"\"",
   "Structured execution events for " ++ docstring m.name ++ " activities.",
   "",
   "Each activity start, completion, failure, and retry is written to stdout as one",
   "`[TWIDDLE_EVENT] \x7bjson\x7d` line that log collectors can parse, followed by a short",
   "human-readable line.",
   "\"\"\"",
   "import functools",
   "import json",
   "import time",
   "import traceback",
   "from dataclasses import asdict, dataclass, field",
   "from datetime import datetime, timezone",
   "from typing import Any, Awaitable, Callable, Dict, Optional",
   "",
   "from temporalio import activity",
   "",
   "EVENT_PREFIX = \"[TWIDDLE_EVENT]\"",
   "MAX_SUMMARY_KEYS = 10",
   "MAX_SUMMARY_CHARS = 200",
   "",
   ""]

/-- The records of the event file. -/
def eventRecords : List String :=
  ["@dataclass",
   "class ActivityInput:",
   "    \"\"\"Argument every generated activity receives.\"\"\"",
   "",
   "    node_id: str",
   "    node_name: str",
   "    node_type: str",
   "    parameters: Dict[str, Any] = field(default_factory=dict)",
   "    input_data: Any = None",
   "",
   "",
   "@dataclass",
   "class ExecutionEvent:",
   "    event: str",
   "    node_id: str",
   "    node_name: str",
   "    node_type: str",
   "    attempt: int",
   "    timestamp: str = field(default_factory=lambda: datetime.now(timezone.utc).isoformat())",
   "    duration_ms: Optional[float] = None",
   "    input_summary: Optional[Any] = None",
   "    output_summary: Optional[Any] = None",
   "    error_message: Optional[str] = None",
   "    error_type: Optional[str] = None",
   "    error_stack: Optional[str] = None",
   "",
   "    def to_json(self) -> str:",
   "        return json.dumps(\x7bk: v for k, v in asdict(self).items() if v is not " ++
     "None\x7d, default=str)",
   "",
   ""]

/-- Shorten payloads for events. -/
def eventSummary : List String :=
  ["def summarize(data: Any) -> Any:",
   "    \"\"\"Bounded preview of a payload for event lines.\"\"\"",
   "    if isinstance(data, dict):",
   "        keys = list(data.keys())",
   "        preview = \x7bk: summarize(data[k]) for k in keys[:MAX_SUMMARY_KEYS]\x7d",
   "        if len(keys) > MAX_SUMMARY_KEYS:",
   "            preview[\"...\"] = f\"\x7blen(keys) - MAX_SUMMARY_KEYS\x7d more key(s)\"",
   "        return preview",
   "    if isinstance(data, list):",
   "        return \x7b\"type\": \"list\", \"length\": len(data)\x7d",
   "    if isinstance(data, str) and len(data) > MAX_SUMMARY_CHARS:",
   "        return data[:MAX_SUMMARY_CHARS] + \"...\"",
   "    return data",
   "",
   ""]

/-- Write the events of one call. -/
def eventLogger : List String :=
  ["class ExecutionLogger:",
   "    def __init__(self, input: ActivityInput) -> None:",
   "        self._input = input",
   "        self._attempt = activity.info().attempt",
   "        self._started = time.monotonic()",
   "",
   "    def _emit(self, event: ExecutionEvent, line: str) -> None:",
   "        print(f\"\x7bEVENT_PREFIX\x7d \x7bevent.to_json()\x7d\", flush=True)",
   "        print(line, flush=True)",
   "",
   "    def _event(self, name: str, **extra: Any) -> ExecutionEvent:",
   "        return ExecutionEvent(",
   "            event=name,",
   "            node_id=self._input.node_id,",
   "            node_name=self._input.node_name,",
   "            node_type=self._input.node_type,",
   "            attempt=self._attempt,",
   "            **extra,",
   "        )",
   "",
   "    def _elapsed_ms(self) -> float:",
   "        return round((time.monotonic() - self._started) * 1000, 2)",
   "",
   "    def started(self) -> None:",
   "        if self._attempt > 1:",
   "            self._emit(",
   "                self._event(\"ACTIVITY_RETRY\"),",
   "                f\"↻ [\x7bself._input.node_name\x7d] retry, attempt \x7bself._attempt\x7d\",",
   "            )",
   "        self._emit(",
   "            self._event(\"ACTIVITY_STARTED\", " ++
     "input_summary=summarize(self._input.input_data)),",
   "            f\"▶ [\x7bself._input.node_name\x7d] started (\x7bself._input.node_type\x7d)\",",
   "        )",
   "",
   "    def completed(self, output: Any) -> None:",
   "        duration = self._elapsed_ms()",
   "        self._emit(",
   "            self._event(\"ACTIVITY_COMPLETED\", duration_ms=duration, " ++
     "output_summary=summarize(output)),",
   "            f\"✓ [\x7bself._input.node_name\x7d] completed in \x7bduration\x7dms\",",
   "        )",
   "",
   "    def failed(self, error: BaseException) -> None:",
   "        duration = self._elapsed_ms()",
   "        self._emit(",
   "            self._event(",
   "                \"ACTIVITY_FAILED\",",
   "                duration_ms=duration,",
   "                error_message=str(error),",
   "                error_type=type(error).__name__,",
   "                error_stack=traceback.format_exc(),",
   "            ),",
   "            f\"✗ [\x7bself._input.node_name\x7d] failed after \x7bduration\x7dms: " ++
     "\x7berror\x7d\",",
   "        )",
   "",
   ""]

/-- Wrap a function in its events. -/
def eventWrapper : List String :=
  ["def with_execution_logging(",
   "    fn: Callable[[ActivityInput], Awaitable[Any]],",
   ") -> Callable[[ActivityInput], Awaitable[Any]]:",
   "    \"\"\"Wrap an activity so it emits start, completion, failure, and retry events.\"\"\"",
   "",
   "    @functools.wraps(fn)",
   "    async def wrapper(input: ActivityInput) -> Any:",
   "        logger = ExecutionLogger(input)",
   "        logger.started()",
   "        try:",
   "            output = await fn(input)",
   "        except Exception as err:",
   "            logger.failed(err)",
   "            raise",
   "        logger.completed(output)",
   "        return output",
   "",
   "    return wrapper"]

/-- The event file. -/
def eventFile (m : Metadata) : SourceFile where
  path := "execution_logging.py"
  lines := eventPreamble m ++ eventRecords ++ eventSummary ++ eventLogger ++ eventWrapper

end FlowGraph.Program.Temporal
