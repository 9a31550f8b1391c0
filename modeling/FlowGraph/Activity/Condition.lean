import FlowGraph.Activity.FieldPath

/-!
# Conditions

A condition compares the part of a payload at a field path with a value.  Numbers compare as
binary64 whatever their kind, and everything else compares as written, so `true` never equals `1`.
-/

namespace FlowGraph

/-- What a condition asks. -/
inductive Operation where
  | equals
  | notEquals
  | greaterThan
  | greaterThanOrEqual
  | lessThan
  | lessThanOrEqual
  | contains
  | notContains
  | startsWith
  | endsWith
  | isEmpty
  | isNotEmpty
  | present
  | absent
deriving DecidableEq

namespace Operation

/-- Every operation, in declared order. -/
def all : List Operation :=
  [.equals, .notEquals, .greaterThan, .greaterThanOrEqual, .lessThan, .lessThanOrEqual,
   .contains, .notContains, .startsWith, .endsWith, .isEmpty, .isNotEmpty, .present, .absent]

/-- The name of an operation. -/
def name : Operation → String
  | .equals => "equals"
  | .notEquals => "notEquals"
  | .greaterThan => "greaterThan"
  | .greaterThanOrEqual => "greaterThanOrEqual"
  | .lessThan => "lessThan"
  | .lessThanOrEqual => "lessThanOrEqual"
  | .contains => "contains"
  | .notContains => "notContains"
  | .startsWith => "startsWith"
  | .endsWith => "endsWith"
  | .isEmpty => "isEmpty"
  | .isNotEmpty => "isNotEmpty"
  | .present => "exists"
  | .absent => "notExists"

/-- The operation of a name. -/
def ofName? (s : String) : Option Operation := all.find? fun op => op.name = s

end Operation

namespace Json

/-- Equality with numbers of any kind compared as binary64. -/
def looselyEqual (a b : Json) : Bool :=
  match a.real?, b.real? with
  | some x, some y => x.sameValue y
  | _, _ => a.same b

/-- The order of two numbers or two strings. -/
def order? (a b : Json) : Option Ordering :=
  match a.real?, b.real? with
  | some x, some y => some (x.order y)
  | _, _ =>
    match a, b with
    | .string s, .string t => some (compare s t)
    | _, _ => none

/-- Null, and strings, arrays and objects that hold nothing. -/
def isEmpty : Json → Bool
  | .null => true
  | .string s => s.isEmpty
  | .array items => items.isEmpty
  | .object members => members.isEmpty
  | _ => false

/-- Whether a row of characters occurs in another one without gaps. -/
def occursIn (needle : List Char) : List Char → Bool
  | [] => needle.isEmpty
  | c :: rest => needle.isPrefixOf (c :: rest) || occursIn needle rest

/-- A string contains its parts, an array its items, an object the names of its members. -/
def contains (haystack needle : Json) : Bool :=
  match haystack, needle with
  | .string s, .string part => occursIn part.toList s.toList
  | .array items, _ => items.any fun item => item.looselyEqual needle
  | .object members, .string key => members.any fun m => m.1 = key
  | _, _ => false

/-- A string starts with another one. -/
def startsWith (whole start : Json) : Bool :=
  match whole, start with
  | .string s, .string t => t.toList.isPrefixOf s.toList
  | _, _ => false

/-- A string ends with another one. -/
def endsWith (whole ending : Json) : Bool :=
  match whole, ending with
  | .string s, .string t => t.toList.isSuffixOf s.toList
  | _, _ => false

end Json

/-- A question about a payload. -/
structure Condition where
  field : String
  operation : Operation
  value : Json := .null

namespace Condition

/-- The answer of an operation about an actual value, which may be absent, and an expected one. -/
def holds (operation : Operation) (actual : Option Json) (expected : Json) : Bool :=
  let order := actual.bind fun v => v.order? expected
  match operation with
  | .present => actual.isSome
  | .absent => actual.isNone
  | .isEmpty => actual.all Json.isEmpty
  | .isNotEmpty => actual.any fun v => !v.isEmpty
  | .equals => actual.any fun v => v.looselyEqual expected
  | .notEquals => !(actual.any fun v => v.looselyEqual expected)
  | .greaterThan => order.any (·.isGT)
  | .greaterThanOrEqual => order.any (·.isGE)
  | .lessThan => order.any (·.isLT)
  | .lessThanOrEqual => order.any (·.isLE)
  | .contains => actual.any fun v => v.contains expected
  | .notContains => !(actual.any fun v => v.contains expected)
  | .startsWith => actual.any fun v => v.startsWith expected
  | .endsWith => actual.any fun v => v.endsWith expected

/-- The answer for a payload. -/
def evaluate (c : Condition) (payload : Json) : Bool :=
  holds c.operation (FieldPath.resolve payload c.field) c.value

/-- Write a condition. -/
def toJson (c : Condition) : Json :=
  .ofPairs [
    ("field", .string c.field),
    ("operation", .string c.operation.name),
    ("value", c.value)]

end Condition

end FlowGraph
