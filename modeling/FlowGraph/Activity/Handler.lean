import FlowGraph.Activity.ConditionRecord
import FlowGraph.Definition.Record

/-!
# Handlers

A handler performs one attempt at a node's work: after some time it answers with an output or a
fault.  A fault of the parameters makes further attempts pointless.

Current gaps:

- The work of a handler is its answer and how long this takes; what it does to the world outside is
  left out, and it answers the same attempt always alike.
-/

namespace FlowGraph

/-- What one attempt is given. -/
structure ActivityInput where
  nodeId : String
  nodeName : String
  nodeType : String
  parameters : Members
  payload : Json
  attempt : Nat

namespace ActivityInput

/-- The first attempt at a node with a payload. -/
def ofNode (node : Node) (payload : Json) : ActivityInput where
  nodeId := node.id
  nodeName := node.displayName
  nodeType := node.typeTag
  parameters := node.parameters
  payload := payload
  attempt := 1

/-- The parameter of a name. -/
def parameter? (input : ActivityInput) (key : String) : Option Json := input.parameters.lookup key

/-- Write an attempt's input. -/
def toJson (input : ActivityInput) : Json :=
  .ofPairs [
    ("node_id", .string input.nodeId),
    ("node_name", .string input.nodeName),
    ("node_type", .string input.nodeType),
    ("parameters", .object input.parameters),
    ("input_data", input.payload),
    ("attempt", .ofUInt64 (UInt64.ofNat input.attempt))]

end ActivityInput

/-- What is wrong with a node's parameters. -/
inductive ParameterFault where
  | valuesMissing
  | valuesNotObject (found : Json)
  | noConditions
  | badCondition (condition : Json) (fault : ConditionFault)
  | unknownCombinator (name : String)
  | fieldMissing
  | casesNotArray (found : Json)
  | caseWithoutOutput (case : Json)
  | other (text : String)

namespace ParameterFault

/-- The fault in words. -/
def message : ParameterFault → String
  | .valuesMissing => "'values' is required"
  | .valuesNotObject found => "'values' must be an object, got " ++ found.compact
  | .noConditions => "'conditions' must be a non-empty array"
  | .badCondition condition fault =>
    "invalid condition " ++ condition.compact ++ ": " ++ fault.message
  | .unknownCombinator name => "unknown combinator '" ++ name ++ "'"
  | .fieldMissing => "'field' is required"
  | .casesNotArray found => "'cases' must be an array, got " ++ found.compact
  | .caseWithoutOutput case => "case " ++ case.compact ++ " has no 'output'"
  | .other text => text

end ParameterFault

/-- Why an attempt gave no output. -/
inductive HandlerFault where
  /-- The attempt failed and another one may succeed. -/
  | failed (text : String)
  /-- The parameters cannot work. -/
  | invalidParameters (fault : ParameterFault)

namespace HandlerFault

/-- The fault in words. -/
def message : HandlerFault → String
  | .failed text => text
  | .invalidParameters fault => "invalid parameters: " ++ fault.message

/-- Whether another attempt may succeed. -/
def isRetryable : HandlerFault → Bool
  | .failed _ => true
  | .invalidParameters _ => false

end HandlerFault

/-- The answer of an attempt and the milliseconds it takes. -/
structure Response where
  afterMs : Nat
  result : Except HandlerFault Json

/-- A handler answers every attempt. -/
abbrev Handler := ActivityInput → Response

/-- A handler that answers at once. -/
def Handler.immediate (work : ActivityInput → Except HandlerFault Json) : Handler :=
  fun input => ⟨0, work input⟩

end FlowGraph
