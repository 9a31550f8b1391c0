import FlowGraph.Json.Printer
import FlowGraph.Run.Timeline
import FlowGraph.Workflow.Lint

/-!
# Reports of the command line

A validation is reported with every violation or, for a valid workflow, every finding.  A run is
reported with its outcome, every node's result dated.
-/

namespace FlowGraph.CommandLine

/-! ## Validation -/

/-- What a validation found in a document. -/
structure ValidationReport where
  name : String
  errors : List Violation
  issues : List Issue

namespace ValidationReport

/-- Validate a document. -/
def ofDocument (document : Json) : ValidationReport :=
  match Workflow.ofDocument document with
  | .ok w => ⟨w.name, [], w.lint⟩
  | .error faults => ⟨((document.member? "name").bind Json.string?).getD "", faults, []⟩

/-- Whether the document has no violation and no finding that is an error. -/
def isValid (r : ValidationReport) : Bool :=
  r.errors.isEmpty && !r.issues.any fun issue => issue.severity = .error

/-- The report as a record. -/
def toJson (r : ValidationReport) : Json :=
  .ofPairs
    [("name", .string r.name), ("valid", .bool r.isValid),
     ("errors", .array (r.errors.map fun e => .string e.message)),
     ("issues", .array (r.issues.map Issue.toJson))]

/-- The report as lines. -/
def text (r : ValidationReport) : String :=
  "\n".intercalate <|
    (r.errors.map fun e => "✗ " ++ e.message) ++ r.issues.map Issue.text ++
      if r.isValid then ["✓ workflow '" ++ r.name ++ "' is valid"] else []

end ValidationReport

/-! ## Runs -/

/-- When the nodes of a log were begun and left, in the order in which they were left; `begun` is
when the node in hand was begun. -/
def nodeSpans (begun : Nat) : List (Nat × Event) → List (Nat × Nat)
  | [] => []
  | (now, event) :: rest =>
    match event with
    | .nodeStarted _ _ => nodeSpans now rest
    | .nodeSkipped _ => (now, now) :: nodeSpans now rest
    | .nodeCompleted _ _ _ => (begun, now) :: nodeSpans now rest
    | .nodeFailed _ _ _ => (begun, now) :: nodeSpans now rest
    | _ => nodeSpans begun rest

/-- A result with its dates. -/
def resultJson (stamp : Nat → String) (r : NodeResult) (span : Nat × Nat) : Json :=
  .object (r.members
    [("started_at", .string (stamp span.1)), ("finished_at", .string (stamp span.2))])

/-- The outcome of a named run as a record. -/
def outcomeJson (id : String) (stamp : Nat → String) (o : Outcome) (log : List (Nat × Event)) :
    Json :=
  .object <|
    [("execution_id", .string id), ("status", .string o.status.name),
     ("results", .array (List.zipWith (resultJson stamp) o.results (nodeSpans 0 log))),
     ("output", o.output)] ++
    o.error.toList.map fun error => ("error", .string error)

end FlowGraph.CommandLine
