import FlowGraph.Json.Basic

/-!
# Records in JSON

A record is read from an object by member names, or from an array by the declared order of its
members.  Unknown members are ignored, a missing member is a fault unless it has a default, and
null stands for no typed value.
-/

namespace FlowGraph

/-- Why a value does not fit a type. -/
inductive ReadFault where
  | missing (member : String)
  | mismatch (expected : String)
  | outOfRange (value : Int) (type : String)
deriving DecidableEq

namespace ReadFault

/-- The fault in words. -/
def message : ReadFault → String
  | .missing member => "missing field `" ++ member ++ "`"
  | .mismatch expected => "invalid type, expected " ++ expected
  | .outOfRange value type =>
    "invalid value: integer `" ++ toString value ++ "`, expected " ++ type

end ReadFault

/-- A reader of typed values. -/
abbrev ReadAs (α : Type) := Json → Except ReadFault α

namespace ReadAs

/-- A string. -/
def string : ReadAs String
  | .string s => .ok s
  | _ => .error (.mismatch "a string")

/-- A boolean. -/
def bool : ReadAs Bool
  | .bool b => .ok b
  | _ => .error (.mismatch "a boolean")

/-- An integer literal below a bound. -/
def below (bound : Int) (type : String) : ReadAs Nat
  | .number (.integer i) =>
    if 0 ≤ i.val ∧ i.val < bound then .ok i.val.toNat else .error (.outOfRange i.val type)
  | _ => .error (.mismatch type)

/-- An unsigned 64-bit integer. -/
def uint64 : ReadAs UInt64 := fun v => UInt64.ofNat <$> below UInt64.size "u64" v

/-- An unsigned 32-bit integer. -/
def uint32 : ReadAs UInt32 := fun v => UInt32.ofNat <$> below UInt32.size "u32" v

/-- Any number as a binary64. -/
def real : ReadAs Decimal.Binary64
  | .number n => .ok n.toReal
  | _ => .error (.mismatch "f64")

/-- The members of an object. -/
def members : ReadAs Members
  | .object ms => .ok ms
  | _ => .error (.mismatch "a map")

/-- Any value, null included. -/
def any : ReadAs Json := .ok

/-- An array of values of one type. -/
def list {α : Type} (read : ReadAs α) : ReadAs (List α)
  | .array items => items.mapM read
  | _ => .error (.mismatch "a sequence")

/-- The members of a record with the given names, in declared order. -/
def record (names : List String) : ReadAs Members
  | .object ms => .ok ms
  | .array items =>
    if items.length ≤ names.length then .ok (names.zip items)
    else .error (.mismatch "fewer elements in array")
  | _ => .error (.mismatch "a struct")

/-- One of several names, written plainly or as the only member of an object with a null value. -/
def choice {α : Type} (choices : List (String × α)) : ReadAs α := fun v =>
  let named (name : String) : Except ReadFault α :=
    match choices.lookup name with
    | some value => .ok value
    | none => .error (.mismatch "a known variant")
  match v with
  | .string name => named name
  | .object [(name, .null)] => named name
  | _ => .error (.mismatch "a variant")

end ReadAs

namespace Members

/-- A member that must be present. -/
def required {α : Type} (members : Members) (key : String) (read : ReadAs α) :
    Except ReadFault α :=
  match members.lookup key with
  | some v => read v
  | none => .error (.missing key)

/-- A member that has a default. -/
def defaulted {α : Type} (members : Members) (key : String) (default : α) (read : ReadAs α) :
    Except ReadFault α :=
  match members.lookup key with
  | some v => read v
  | none => .ok default

end Members

end FlowGraph
