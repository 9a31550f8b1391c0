import FlowGraph.Json.Printer
import FlowGraph.Text.Control

/-!
# Python literals

A JSON value is written as a Python expression.  A string stands between double quotes, or between
triple double quotes when it has a line break or both kinds of quotes.
-/

namespace FlowGraph.Program.Literal

/-- Four lower-case hexadecimal digits of a 16-bit number. -/
def fourHex (n : Nat) : List Char :=
  [Json.hexChar (n / 4096), Json.hexChar (n / 256), Json.hexChar (n / 16), Json.hexChar n]

/-- The spelling of a character other than a backslash, a quote or a line break. -/
def plainChar (c : Char) : List Char :=
  match c with
  | '\t' => ['\\', 't']
  | '\r' => ['\\', 'r']
  | c => if Text.isControl c then '\\' :: 'u' :: fourHex c.toNat else [c]

/-- The spelling of a character between double quotes. -/
def doubleChar (c : Char) : List Char :=
  match c with
  | '\\' => ['\\', '\\']
  | '"' => ['\\', '"']
  | '\n' => ['\\', 'n']
  | c => plainChar c

/-- The spelling of a character between triple quotes, before quotes are looked at. -/
def tripleChar (c : Char) : List Char :=
  match c with
  | '\\' => ['\\', '\\']
  | '\n' => ['\n']
  | c => plainChar c

/-- Escape three quotes in a row wherever they stand, from the left. -/
def escapeTriples : List Char → List Char
  | '"' :: '"' :: '"' :: rest => '\\' :: '"' :: '\\' :: '"' :: '\\' :: '"' :: escapeTriples rest
  | c :: rest => c :: escapeTriples rest
  | [] => []

/-- Escape an unescaped quote at the end of a body, which would join the closing quotes.  The body
is given last character first: a quote is escaped when an odd number of backslashes precedes it. -/
def escapeLastQuote : List Char → List Char
  | '"' :: before =>
    if (before.takeWhile (· = '\\')).length % 2 = 0 then '"' :: '\\' :: before else '"' :: before
  | body => body

/-- The text between double quotes. -/
def doubleBody (cs : List Char) : List Char := cs.flatMap doubleChar

/-- The text between triple quotes. -/
def tripleBody (cs : List Char) : List Char :=
  (escapeLastQuote (escapeTriples (cs.flatMap tripleChar)).reverse).reverse

/-- Whether a string is written between triple quotes. -/
def needsTriple (cs : List Char) : Bool :=
  cs.contains '\n' || (cs.contains '"' && cs.contains '\'')

/-- The literal of a string, as characters. -/
def stringChars (cs : List Char) : List Char :=
  if needsTriple cs then
    ['"', '"', '"'] ++ tripleBody cs ++ ['"', '"', '"']
  else ['"'] ++ doubleBody cs ++ ['"']

/-- The literal of a string. -/
def string (s : String) : String := String.ofList (stringChars s.toList)

/-- The literal of a list of strings. -/
def strings (items : List String) : String := "[" ++ ", ".intercalate (items.map string) ++ "]"

mutual

/-- The literal of a value. -/
def value : Json → String
  | .null => "None"
  | .bool b => if b then "True" else "False"
  | .number n => n.text
  | .string s => string s
  | .array items => "[" ++ ", ".intercalate (values items) ++ "]"
  | .object members => "\x7b" ++ ", ".intercalate (entries members) ++ "\x7d"

/-- The literals of items. -/
def values : List Json → List String
  | [] => []
  | v :: rest => value v :: values rest

/-- The literals of members. -/
def entries : List (String × Json) → List String
  | [] => []
  | (key, v) :: rest => (string key ++ ": " ++ value v) :: entries rest

end

end FlowGraph.Program.Literal
