import FlowGraph.Json.Basic
import FlowGraph.Text.Split

/-!
# Field paths

A path of dot-separated segments leads from a payload to a part of it: a segment is a member name
in an object and an index in an array.  The empty path is the payload itself.
-/

namespace FlowGraph.FieldPath

/-- The segments of a path. -/
def segments (path : String) : List (List Char) := Text.split (· = '.') path.toList

/-- The value of a row of decimal digits. -/
def decimal? (digits : List Char) : Option Nat :=
  if digits.isEmpty || !digits.all Char.isDigit then none
  else some (digits.foldl (fun n c => n * 10 + (c.toNat - '0'.toNat)) 0)

/-- An array index: decimal digits after an optional plus, in the range of a 64-bit word. -/
def index? (segment : List Char) : Option Nat := do
  let n ← decimal? (match segment with
    | '+' :: digits => digits
    | digits => digits)
  if n < UInt64.size then some n else none

/-- One step into a value. -/
def step (v : Json) (segment : List Char) : Option Json :=
  match v with
  | .object members => members.lookup (String.ofList segment)
  | .array items => (index? segment).bind fun i => items[i]?
  | _ => none

/-- The part of a value that a path leads to. -/
def resolve (v : Json) (path : String) : Option Json :=
  if path.isEmpty then some v else (segments path).foldlM step v

end FlowGraph.FieldPath
