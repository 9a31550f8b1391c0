import FlowGraph.Activity.Condition
import FlowGraph.Json.Printer
import FlowGraph.Text.Escaped

/-!
# Conditions as JSON records

A condition is read member by member in the order of their names, and the first fault is the one
reported.  As an array its members stand in the order field, operation, value.
-/

namespace FlowGraph

/-- A value in the words of a fault. -/
def Json.described : Json → String
  | .null => "null"
  | .bool b => "boolean `" ++ (if b then "true" else "false") ++ "`"
  | .number (.integer i) => "integer `" ++ toString i.val ++ "`"
  | .number (.real x) => "floating point `" ++ Decimal.Layout.document.text x ++ "`"
  | .string s => "string " ++ Text.escaped s
  | .array _ => "sequence"
  | .object _ => "map"

/-- Why a value is not a condition. -/
inductive ConditionFault where
  | missing (member : String)
  | wrongType (found : Json) (expected : String)
  | unknownOperation (name : String)
  | notSingleMember
  | tooFew (length : Nat)
  | tooMany (length : Nat)

namespace ConditionFault

/-- The fault in words. -/
def message : ConditionFault → String
  | .missing member => "missing field `" ++ member ++ "`"
  | .wrongType found expected => "invalid type: " ++ found.described ++ ", expected " ++ expected
  | .unknownOperation name =>
    "unknown variant `" ++ name ++ "`, expected one of " ++
      ", ".intercalate (Operation.all.map fun op => "`" ++ op.name ++ "`")
  | .notSingleMember => "invalid value: map, expected map with a single key"
  | .tooFew length =>
    "invalid length " ++ toString length ++ ", expected struct Condition with 3 elements"
  | .tooMany length =>
    "invalid length " ++ toString length ++ ", expected fewer elements in array"

end ConditionFault

namespace Condition

/-- Read the field of a condition. -/
def readField : Json → Except ConditionFault String
  | .string s => .ok s
  | other => .error (.wrongType other "a string")

/-- Find an operation by name. -/
def findOperation (name : String) : Except ConditionFault Operation :=
  match Operation.ofName? name with
  | some op => .ok op
  | none => .error (.unknownOperation name)

/-- Read the operation of a condition: its name, or an object with the name over null. -/
def readOperation : Json → Except ConditionFault Operation
  | .string name => findOperation name
  | .object [(name, content)] => do
    let op ← findOperation name
    match content with
    | .null => .ok op
    | other => .error (.wrongType other "unit")
  | .object _ => .error .notSingleMember
  | other => .error (.wrongType other "string or map")

/-- Read a member if it is there. -/
def readPresent {α : Type} (members : Members) (key : String)
    (read : Json → Except ConditionFault α) : Except ConditionFault (Option α) :=
  match members.lookup key with
  | some v => some <$> read v
  | none => .ok none

/-- A member that must have been there. -/
def demand {α : Type} (key : String) : Option α → Except ConditionFault α
  | some a => .ok a
  | none => .error (.missing key)

/-- Read a condition. -/
def read : Json → Except ConditionFault Condition
  | .object members => do
    let field ← readPresent members "field" readField
    let operation ← readPresent members "operation" readOperation
    let value := (members.lookup "value").getD .null
    return { field := ← demand "field" field, operation := ← demand "operation" operation, value }
  | .array items =>
    match items with
    | [] => .error (.tooFew 0)
    | field :: rest => do
      let field ← readField field
      match rest with
      | [] => .error (.tooFew 1)
      | operation :: rest => do
        let operation ← readOperation operation
        match rest with
        | [] => .ok { field, operation }
        | [value] => .ok { field, operation, value }
        | _ => .error (.tooMany items.length)
  | other => .error (.wrongType other "struct Condition")

end Condition

end FlowGraph
