import FlowGraph.Json.Basic
import FlowGraph.Decimal.Layout

/-!
# Writing JSON text

Compact text has no blanks; indented text puts every item and member on a line of its own, two
spaces deeper than its bracket.  A string escapes quotes, backslashes and characters below the
space, and keeps everything else.
-/

namespace FlowGraph

/-- The decimal text of a number. -/
def Number.text : Number → String
  | .integer i => toString i.val
  | .real x => Decimal.Layout.document.text x

namespace Json

/-! ## Strings -/

/-- A digit of a small number in lower-case hexadecimal. -/
def hexChar (n : Nat) : Char := Nat.digitChar (n % 16)

/-- The spelling of one character inside a string. -/
def escapeChar (c : Char) : List Char :=
  match c with
  | '"' => ['\\', '"']
  | '\\' => ['\\', '\\']
  | '\x08' => ['\\', 'b']
  | '\t' => ['\\', 't']
  | '\n' => ['\\', 'n']
  | '\x0c' => ['\\', 'f']
  | '\r' => ['\\', 'r']
  | c =>
    if c.toNat < 0x20 then ['\\', 'u', '0', '0', hexChar (c.toNat / 16), hexChar c.toNat]
    else [c]

/-- A string between quotes. -/
def quoted (s : String) : String :=
  String.ofList ('"' :: s.toList.flatMap escapeChar ++ ['"'])

/-! ## Compact text -/

mutual

/-- Compact text. -/
def compact : Json → String
  | .null => "null"
  | .bool b => if b then "true" else "false"
  | .number n => n.text
  | .string s => quoted s
  | .array items => "[" ++ ",".intercalate (compactItems items) ++ "]"
  | .object members => "\x7b" ++ ",".intercalate (compactMembers members) ++ "\x7d"

/-- Compact texts of items. -/
def compactItems : List Json → List String
  | [] => []
  | v :: rest => compact v :: compactItems rest

/-- Compact texts of members. -/
def compactMembers : List (String × Json) → List String
  | [] => []
  | (key, v) :: rest => (quoted key ++ ":" ++ compact v) :: compactMembers rest

end

/-! ## Indented text -/

/-- Lines between two brackets, each at the given depth. -/
def indentedBlock (depth : Nat) (opening closing : String) (entries : List String) : String :=
  if entries.isEmpty then opening ++ closing
  else
    let margin := "\n" ++ String.ofList (List.replicate (2 * (depth + 1)) ' ')
    opening ++ margin ++ ("," ++ margin).intercalate entries ++
      "\n" ++ String.ofList (List.replicate (2 * depth) ' ') ++ closing

mutual

/-- Indented text of a value that stands at a depth. -/
def indentedAt (depth : Nat) : Json → String
  | .null => "null"
  | .bool b => if b then "true" else "false"
  | .number n => n.text
  | .string s => quoted s
  | .array items => indentedBlock depth "[" "]" (indentedItems (depth + 1) items)
  | .object members =>
    indentedBlock depth "\x7b" "\x7d" (indentedMembers (depth + 1) members)

/-- Indented texts of items. -/
def indentedItems (depth : Nat) : List Json → List String
  | [] => []
  | v :: rest => indentedAt depth v :: indentedItems depth rest

/-- Indented texts of members. -/
def indentedMembers (depth : Nat) : List (String × Json) → List String
  | [] => []
  | (key, v) :: rest =>
    (quoted key ++ ": " ++ indentedAt depth v) :: indentedMembers depth rest

end

/-- Indented text. -/
def indented (v : Json) : String := indentedAt 0 v

end Json

end FlowGraph
