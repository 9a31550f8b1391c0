import FlowGraph.Activity.Handler
import FlowGraph.Workflow.Routing

/-!
# Built-in handlers

Every installation passes payloads through, merges values into them and routes them.  A router
answers with the payload read as an object whose `branch` member alone is changed.
-/

namespace FlowGraph.Builtin

/-- A payload as object members: null is the empty object, and a value that is no object stands
under `value`. -/
def asMembers : Json → Members
  | .object members => members
  | .null => []
  | other => [("value", other)]

/-- A payload that carries a branch label, or none. -/
def withBranch (payload : Json) (label : Option String) : Json :=
  match label with
  | some label => .object ((asMembers payload).put branchField (.string label))
  | none => .object ((asMembers payload).without branchField)

/-- Answer with the payload. -/
def passThrough (input : ActivityInput) : Except HandlerFault Json := .ok input.payload

/-- Answer with the `values` parameter, merged into the payload unless `keepOnlySet` is true. -/
def set (input : ActivityInput) : Except HandlerFault Json := do
  let values ← match input.parameter? "values" with
    | some (.object values) => .ok values
    | some other => .error (.invalidParameters (.valuesNotObject other))
    | none => .error (.invalidParameters .valuesMissing)
  let onlyValues := ((input.parameter? "keepOnlySet").bind Json.bool?).getD false
  return .object (Members.putAll (if onlyValues then [] else asMembers input.payload) values)

/-- Read one of the conditions of a two-way router. -/
def readCondition (v : Json) : Except HandlerFault Condition :=
  match Condition.read v with
  | .ok condition => .ok condition
  | .error fault => .error (.invalidParameters (.badCondition v fault))

/-- The conditions of a two-way router, at least one. -/
def conditions (input : ActivityInput) : Except HandlerFault (List Condition) :=
  match input.parameter? "conditions" with
  | some (.array (first :: rest)) => (first :: rest).mapM readCondition
  | _ => .error (.invalidParameters .noConditions)

/-- Whether one condition is enough. -/
def anySuffices (input : ActivityInput) : Except HandlerFault Bool :=
  match (input.parameter? "combinator").bind Json.string? with
  | none => .ok false
  | some "and" => .ok false
  | some "or" => .ok true
  | some other => .error (.invalidParameters (.unknownCombinator other))

/-- Label the payload `true` or `false` by all or any of the conditions. -/
def ifRouter (input : ActivityInput) : Except HandlerFault Json := do
  let conditions ← conditions input
  let any ← anySuffices input
  let matched :=
    if any then conditions.any (·.evaluate input.payload)
    else conditions.all (·.evaluate input.payload)
  return withBranch input.payload (some (if matched then "true" else "false"))

/-- The output of the first case whose value loosely equals the actual one; every case up to it
must name an output. -/
def matchingCase (actual : Option Json) : List Json → Except HandlerFault (Option String)
  | [] => .ok none
  | case :: rest =>
    match (case.member? "output").bind Json.string? with
    | none => .error (.invalidParameters (.caseWithoutOutput case))
    | some output =>
      if actual.any fun v => v.looselyEqual ((case.member? "value").getD .null) then
        .ok (some output)
      else matchingCase actual rest

/-- Label the payload with the first matching case, or with the fallback if there is one. -/
def switchRouter (input : ActivityInput) : Except HandlerFault Json := do
  let field ← match (input.parameter? "field").bind Json.string? with
    | some field => .ok field
    | none => .error (.invalidParameters .fieldMissing)
  let cases ← match input.parameter? "cases" with
    | some (.array cases) => .ok cases
    | none => .ok []
    | some other => .error (.invalidParameters (.casesNotArray other))
  let matched ← matchingCase (FieldPath.resolve input.payload field) cases
  let fallback := (input.parameter? "fallbackOutput").bind Json.string?
  return withBranch input.payload (matched.or fallback)

/-- The built-in handlers by type tag. -/
def handlers : List (String × Handler) := [
  ("twiddle.manualTrigger", .immediate passThrough),
  ("twiddle.webhookTrigger", .immediate passThrough),
  ("twiddle.scheduleTrigger", .immediate passThrough),
  ("twiddle.start", .immediate passThrough),
  ("twiddle.noOp", .immediate passThrough),
  ("twiddle.set", .immediate set),
  ("twiddle.if", .immediate ifRouter),
  ("twiddle.switch", .immediate switchRouter)]

end FlowGraph.Builtin
