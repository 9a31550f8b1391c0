import FlowGraph.Program.SourceText

/-!
# Function bodies of generated programs

A snippet is the body of the function that a generated program calls for a node, with the modules
it imports and the packages it needs.  Node types outside the library get a placeholder that
passes the payload on.

Current gaps:

- The library is fixed: a generator with snippets of its own is left out, as there is no way to make
  one.
- A body is text; what it does when a program calls it is left out.
-/

namespace FlowGraph.Program

/-- The body of a generated function. -/
structure Snippet where
  body : List String
  /-- Import lines, in the order in which the function's own module has them. -/
  imports : List String
  /-- Requirement lines of a package installer. -/
  requirements : List String

namespace Snippet

/-- Send a request and answer with its status, headers and body. -/
def httpRequest : Snippet where
  body :=
    ["    params = input.parameters",
     "    url = params.get(\"url\")",
     "    if not url:",
     "        raise ValueError(\"httpRequest requires a 'url' parameter\")",
     "    method = str(params.get(\"method\", \"GET\")).upper()",
     "    timeout = aiohttp.ClientTimeout(total=float(params.get(\"timeout\", 30)))",
     "",
     "    async with aiohttp.ClientSession(timeout=timeout) as session:",
     "        async with session.request(",
     "            method,",
     "            url,",
     "            headers=params.get(\"headers\") or \x7b\x7d,",
     "            params=params.get(\"query\") or None,",
     "            json=params.get(\"body\"),",
     "        ) as response:",
     "            text = await response.text()",
     "            try:",
     "                body = json.loads(text) if text else None",
     "            except json.JSONDecodeError:",
     "                body = text",
     "            if response.status >= 400 and not params.get(\"ignoreHttpErrors\", False):",
     "                raise RuntimeError(f\"HTTP \x7bresponse.status\x7d from \x7bmethod\x7d " ++
       "\x7burl\x7d\")",
     "            return \x7b\"status\": response.status, \"headers\": " ++
       "dict(response.headers), \"body\": body\x7d"]
  imports := ["import json", "import aiohttp"]
  requirements := ["aiohttp>=3.9.0"]

/-- Run a query and answer with its rows. -/
def postgres : Snippet where
  body :=
    ["    params = input.parameters",
     "    query = params.get(\"query\")",
     "    if not query:",
     "        raise ValueError(\"postgres requires a 'query' parameter\")",
     "    dsn = params.get(\"connectionString\") or get_env(\"DATABASE_URL\")",
     "",
     "    connection = await asyncpg.connect(dsn)",
     "    try:",
     "        rows = await connection.fetch(query, *(params.get(\"args\") or []))",
     "    finally:",
     "        await connection.close()",
     "    return \x7b\"rows\": [dict(row) for row in rows], \"rowCount\": len(rows)\x7d"]
  imports := ["import asyncpg"]
  requirements := ["asyncpg>=0.29.0"]

/-- Run a command on another host and answer with its output and exit code. -/
def ssh : Snippet where
  body :=
    ["    params = input.parameters",
     "    command = params.get(\"command\")",
     "    if not command:",
     "        raise ValueError(\"ssh requires a 'command' parameter\")",
     "",
     "    async with asyncssh.connect(",
     "        params.get(\"host\") or get_env(\"SSH_HOST\"),",
     "        port=int(params.get(\"port\", 22)),",
     "        username=params.get(\"username\") or get_env(\"SSH_USER\") or None,",
     "        password=params.get(\"password\") or get_env(\"SSH_PASSWORD\") or None,",
     "        known_hosts=None,",
     "    ) as connection:",
     "        result = await connection.run(command, check=False)",
     "    if result.exit_status != 0 and not params.get(\"ignoreExitCode\", False):",
     "        raise RuntimeError(f\"command exited with status \x7bresult.exit_status\x7d: " ++
       "\x7bresult.stderr\x7d\")",
     "    return \x7b\"stdout\": result.stdout, \"stderr\": result.stderr, \"exitCode\": " ++
       "result.exit_status\x7d"]
  imports := ["import asyncssh"]
  requirements := ["asyncssh>=2.14.0"]

/-- Merge values into the payload, or answer with the values alone. -/
def set : Snippet where
  body :=
    ["    params = input.parameters",
     "    values = params.get(\"values\")",
     "    if not isinstance(values, dict):",
     "        raise ValueError(\"set requires a 'values' object\")",
     "    output = \x7b\x7d if params.get(\"keepOnlySet\", False) else " ++
       "as_object(input.input_data)",
     "    output.update(values)",
     "    return output"]
  imports := []
  requirements := []

/-- Answer with the payload. -/
def noOp : Snippet where
  body :=
    ["    return input.input_data"]
  imports := []
  requirements := []

/-- Label the payload `true` or `false` by its conditions. -/
def ifRouter : Snippet where
  body :=
    ["    params = input.parameters",
     "    conditions = params.get(\"conditions\")",
     "    if not isinstance(conditions, list) or not conditions:",
     "        raise ValueError(\"if requires a non-empty 'conditions' list\")",
     "    combinator = params.get(\"combinator\", \"and\")",
     "    if combinator not in (\"and\", \"or\"):",
     "        raise ValueError(f\"unknown combinator \x7bcombinator!r\x7d\")",
     "",
     "    results = [evaluate_condition(input.input_data, condition) for condition in " ++
       "conditions]",
     "    matched = any(results) if combinator == \"or\" else all(results)",
     "    return with_branch(input.input_data, \"true\" if matched else \"false\")"]
  imports := []
  requirements := []

/-- Label the payload by the first case that equals a field. -/
def switchRouter : Snippet where
  body :=
    ["    params = input.parameters",
     "    field = params.get(\"field\")",
     "    if not isinstance(field, str):",
     "        raise ValueError(\"switch requires a 'field' parameter\")",
     "    cases = params.get(\"cases\", [])",
     "    if not isinstance(cases, list):",
     "        raise ValueError(f\"'cases' must be a list, got \x7bcases!r\x7d\")",
     "",
     "    actual = resolve_field(input.input_data, field)",
     "    label = None",
     "    for case in cases:",
     "        output = case.get(\"output\") if isinstance(case, dict) else None",
     "        if not isinstance(output, str):",
     "            raise ValueError(f\"case \x7bcase!r\x7d has no 'output'\")",
     "        if actual is not MISSING and loosely_equal(actual, case.get(\"value\")):",
     "            label = output",
     "            break",
     "    if label is None:",
     "        fallback = params.get(\"fallbackOutput\")",
     "        label = fallback if isinstance(fallback, str) else None",
     "    return with_branch(input.input_data, label)"]
  imports := []
  requirements := []

/-- Wait in steps of at most ten seconds and answer with the payload. -/
def wait : Snippet where
  body :=
    ["    params = input.parameters",
     "    multiplier = \x7b\"seconds\": 1, \"minutes\": 60, \"hours\": " ++
       "3600\x7d.get(params.get(\"unit\", \"seconds\"), 1)",
     "    remaining = float(params.get(\"amount\", 1)) * multiplier",
     "    while remaining > 0:",
     "        step = min(remaining, 10.0)",
     "        await asyncio.sleep(step)",
     "        remaining -= step",
     "        activity.heartbeat(remaining)",
     "    return input.input_data"]
  imports := ["import asyncio"]
  requirements := []

/-- Log a warning and answer with the payload. -/
def placeholder : Snippet where
  body :=
    ["    # PLACEHOLDER: no implementation is registered for this node type.",
     "    # Replace this body with the real side effect. Until then it passes the payload " ++
       "through.",
     "    activity.logger.warning(f\"[\x7binput.node_name\x7d] placeholder activity for " ++
       "\x7binput.node_type\x7d\")",
     "    return input.input_data"]
  imports := []
  requirements := []

/-- The snippets of known node types. -/
def library : List (String × Snippet) :=
  [("twiddle.httpRequest", httpRequest), ("twiddle.if", ifRouter), ("twiddle.noOp", noOp),
   ("twiddle.postgres", postgres), ("twiddle.set", set), ("twiddle.ssh", ssh),
   ("twiddle.switch", switchRouter), ("twiddle.wait", wait)]

/-- The snippet of a known node type. -/
def ofType? (typeTag : String) : Option Snippet := library.lookup typeTag

/-- The body as text. -/
def bodyText (s : Snippet) : String := textOfLines s.body

end Snippet

end FlowGraph.Program
