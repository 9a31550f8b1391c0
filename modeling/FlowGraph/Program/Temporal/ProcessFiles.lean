import FlowGraph.Program.Literal
import FlowGraph.Program.Temporal.WorkflowFile

/-!
# The processes of a Temporal program

A worker serves the task queue, and a starter begins one run.
-/

namespace FlowGraph.Program.Temporal

/-- The worker file. -/
def workerFile (m : Metadata) (code : List ActivityCode) : SourceFile where
  path := "worker.py"
  lines :=
    ["\"\"\"",
     "Temporal worker for " ++ docstring m.name ++ ".",
     "",
     "Connects to TEMPORAL_HOST (default localhost:7233) in TEMPORAL_NAMESPACE (default",
     "\"default\") and polls the " ++ docstring m.queue ++ " task queue.",
     "\"\"\"",
     "import asyncio",
     "import logging",
     "import os",
     "from concurrent.futures import ThreadPoolExecutor",
     "",
     "from dotenv import load_dotenv",
     "from temporalio.client import Client",
     "from temporalio.worker import Worker",
     ""] ++
    functionImports "" code ++
    ["from workflow import " ++ className m.identifier,
     "",
     "TASK_QUEUE = " ++ Literal.string m.queue,
     "",
     "",
     "async def main() -> None:",
     "    load_dotenv()",
     "    logging.basicConfig(level=os.getenv(\"LOG_LEVEL\", \"INFO\").upper())",
     "",
     "    host = os.getenv(\"TEMPORAL_HOST\", \"localhost:7233\")",
     "    namespace = os.getenv(\"TEMPORAL_NAMESPACE\", \"default\")",
     "    client = await Client.connect(host, namespace=namespace)",
     "",
     "    worker = Worker(",
     "        client,",
     "        task_queue=TASK_QUEUE,",
     "        workflows=[" ++ className m.identifier ++ "],",
     "        activities=["] ++
    (code.map fun a => "            " ++ a.ref.function ++ ",") ++
    ["        ],",
     "        activity_executor=ThreadPoolExecutor(max_workers=10),",
     "    )",
     "    logging.info(\"Worker polling task queue %s on %s/%s\", TASK_QUEUE, host, namespace)",
     "    await worker.run()",
     "",
     "",
     "if __name__ == \"__main__\":",
     "    asyncio.run(main())"]

/-- The starter file. -/
def starterFile (m : Metadata) : SourceFile where
  path := "starter.py"
  lines :=
    ["\"\"\"",
     "Start a " ++ docstring m.name ++ " run.",
     "",
     "    python starter.py --input '\x7b\"key\": \"value\"\x7d'",
     "    python starter.py --id my-run --no-wait",
     "\"\"\"",
     "import argparse",
     "import asyncio",
     "import json",
     "import os",
     "import uuid",
     "",
     "from dotenv import load_dotenv",
     "from temporalio.client import Client",
     "",
     "from workflow import " ++ className m.identifier,
     "",
     "TASK_QUEUE = " ++ Literal.string m.queue,
     "WORKFLOW_NAME = \"" ++ m.identifier ++ "\"",
     "",
     "",
     "async def main() -> None:",
     "    load_dotenv()",
     "    parser = argparse.ArgumentParser(description=\"Start a workflow run\")",
     "    parser.add_argument(\"--input\", \"-i\", default=\"\x7b\x7d\", help=\"JSON input " ++
       "payload\")",
     "    parser.add_argument(\"--id\", default=None, help=\"Workflow id (random when " ++
       "omitted)\")",
     "    parser.add_argument(\"--no-wait\", action=\"store_true\", help=\"Return once the " ++
       "run has started\")",
     "    args = parser.parse_args()",
     "",
     "    payload = json.loads(args.input)",
     "    workflow_id = args.id or f\"\x7bWORKFLOW_NAME\x7d-\x7buuid.uuid4().hex[:8]\x7d\"",
     "",
     "    client = await Client.connect(",
     "        os.getenv(\"TEMPORAL_HOST\", \"localhost:7233\"),",
     "        namespace=os.getenv(\"TEMPORAL_NAMESPACE\", \"default\"),",
     "    )",
     "    handle = await client.start_workflow(",
     "        " ++ className m.identifier ++ ".run,",
     "        payload,",
     "        id=workflow_id,",
     "        task_queue=TASK_QUEUE,",
     "    )",
     "    print(f\"Started workflow \x7bhandle.id\x7d\")",
     "",
     "    if args.no_wait:",
     "        return",
     "    result = await handle.result()",
     "    print(json.dumps(result, indent=2, default=str))",
     "",
     "",
     "if __name__ == \"__main__\":",
     "    asyncio.run(main())"]

end FlowGraph.Program.Temporal
