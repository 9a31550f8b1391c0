/-!
# Payload helpers of generated programs

Every target gets the same helper functions, which the function bodies call: reading an object out
of a payload, labelling it with a branch, resolving a dotted path and evaluating a condition.
-/

namespace FlowGraph.Program.PayloadHelpers

/-- Reading, wrapping and labelling payloads. -/
def objects : List String :=
  ["MISSING = object()",
   "",
   "",
   "def get_env(name: str, default: str = \"\") -> str:",
   "    return os.environ.get(name, default)",
   "",
   "",
   "def as_object(value: Any) -> Dict[str, Any]:",
   "    \"\"\"Objects pass through, null becomes \x7b\x7d, anything else is wrapped as " ++
     "\x7b\"value\": ...\x7d.\"\"\"",
   "    if isinstance(value, dict):",
   "        return dict(value)",
   "    if value is None:",
   "        return \x7b\x7d",
   "    return \x7b\"value\": value\x7d",
   "",
   "",
   "def with_branch(payload: Any, label: Optional[str]) -> Dict[str, Any]:",
   "    output = as_object(payload)",
   "    if label is None:",
   "        output.pop(\"branch\", None)",
   "    else:",
   "        output[\"branch\"] = label",
   "    return output",
   "",
   ""]

/-- Dotted paths into a payload. -/
def paths : List String :=
  ["def resolve_field(payload: Any, path: str) -> Any:",
   "    \"\"\"Dot-path lookup (`user.emails.0`); returns MISSING when any segment is " ++
     "absent.\"\"\"",
   "    if not path:",
   "        return payload",
   "    current = payload",
   "    for segment in path.split(\".\"):",
   "        if isinstance(current, dict) and segment in current:",
   "            current = current[segment]",
   "        elif isinstance(current, list) and segment.isdigit() and int(segment) < " ++
     "len(current):",
   "            current = current[int(segment)]",
   "        else:",
   "            return MISSING",
   "    return current",
   "",
   ""]

/-- Comparison of payload values. -/
def comparison : List String :=
  ["def _number(value: Any) -> Optional[float]:",
   "    if isinstance(value, bool) or not isinstance(value, (int, float)):",
   "        return None",
   "    return float(value)",
   "",
   "",
   "def _json_equal(a: Any, b: Any) -> bool:",
   "    \"\"\"JSON equality: bools are not numbers, and nested ints and floats differ by " ++
     "kind.\"\"\"",
   "    if type(a) is not type(b):",
   "        return False",
   "    if isinstance(a, list):",
   "        return len(a) == len(b) and all(_json_equal(x, y) for x, y in zip(a, b))",
   "    if isinstance(a, dict):",
   "        return a.keys() == b.keys() and all(_json_equal(v, b[k]) for k, v in a.items())",
   "    return a == b",
   "",
   "",
   "def loosely_equal(a: Any, b: Any) -> bool:",
   "    \"\"\"Numbers compare by value (200 == 200.0); everything else by JSON equality.\"\"\"",
   "    x, y = _number(a), _number(b)",
   "    if x is not None and y is not None:",
   "        return x == y",
   "    return _json_equal(a, b)",
   "",
   "",
   "def _compare(actual: Any, expected: Any) -> Optional[int]:",
   "    if actual is MISSING:",
   "        return None",
   "    x, y = _number(actual), _number(expected)",
   "    if x is None or y is None:",
   "        if isinstance(actual, str) and isinstance(expected, str):",
   "            x, y = actual, expected",
   "        else:",
   "            return None",
   "    return (x > y) - (x < y)",
   "",
   "",
   "def _is_empty(value: Any) -> bool:",
   "    return value is None or (isinstance(value, (str, list, dict)) and len(value) == 0)",
   "",
   "",
   "def _contains(haystack: Any, needle: Any) -> bool:",
   "    if isinstance(haystack, str):",
   "        return isinstance(needle, str) and needle in haystack",
   "    if isinstance(haystack, list):",
   "        return any(loosely_equal(item, needle) for item in haystack)",
   "    if isinstance(haystack, dict):",
   "        return isinstance(needle, str) and needle in haystack",
   "    return False",
   "",
   ""]

/-- Conditions on a payload. -/
def conditions : List String :=
  ["def evaluate_condition(payload: Any, condition: Dict[str, Any]) -> bool:",
   "    \"\"\"Evaluate one `\x7b\"field\", \"operation\", \"value\"\x7d` condition against " ++
     "the payload.\"\"\"",
   "    if not isinstance(condition, dict) or \"field\" not in condition or \"operation\" " ++
     "not in condition:",
   "        raise ValueError(f\"invalid condition \x7bcondition!r\x7d\")",
   "    actual = resolve_field(payload, condition[\"field\"])",
   "    expected = condition.get(\"value\")",
   "    operation = condition[\"operation\"]",
   "    present = actual is not MISSING",
   "",
   "    if operation == \"exists\":",
   "        return present",
   "    if operation == \"notExists\":",
   "        return not present",
   "    if operation == \"isEmpty\":",
   "        return not present or _is_empty(actual)",
   "    if operation == \"isNotEmpty\":",
   "        return present and not _is_empty(actual)",
   "    if operation == \"equals\":",
   "        return present and loosely_equal(actual, expected)",
   "    if operation == \"notEquals\":",
   "        return not (present and loosely_equal(actual, expected))",
   "    if operation == \"contains\":",
   "        return present and _contains(actual, expected)",
   "    if operation == \"notContains\":",
   "        return not (present and _contains(actual, expected))",
   "    if operation == \"startsWith\":",
   "        return isinstance(actual, str) and isinstance(expected, str) and " ++
     "actual.startswith(expected)",
   "    if operation == \"endsWith\":",
   "        return isinstance(actual, str) and isinstance(expected, str) and " ++
     "actual.endswith(expected)",
   "",
   "    ordering = \x7b",
   "        \"greaterThan\": lambda o: o > 0,",
   "        \"greaterThanOrEqual\": lambda o: o >= 0,",
   "        \"lessThan\": lambda o: o < 0,",
   "        \"lessThanOrEqual\": lambda o: o <= 0,",
   "    \x7d.get(operation)",
   "    if ordering is None:",
   "        raise ValueError(f\"unknown operation \x7boperation!r\x7d\")",
   "    result = _compare(actual, expected)",
   "    return result is not None and ordering(result)"]

/-- All of these helpers. -/
def lines : List String := objects ++ paths ++ comparison ++ conditions

/-- The branch label of an output, which the graph itself follows. -/
def branchLabel : List String :=
  ["def _branch_label(output: Any) -> Optional[str]:",
   "    \"\"\"Branch label carried in a router's output, if it has a usable one.\"\"\"",
   "    if not isinstance(output, dict):",
   "        return None",
   "    label = output.get(\"branch\")",
   "    if isinstance(label, bool):",
   "        return \"true\" if label else \"false\"",
   "    if isinstance(label, int):",
   "        return str(label)",
   "    if isinstance(label, str) and label:",
   "        return label",
   "    return None"]

end FlowGraph.Program.PayloadHelpers
