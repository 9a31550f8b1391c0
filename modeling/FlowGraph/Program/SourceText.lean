import FlowGraph.Text.Control

/-!
# Free text in generated files

Names and descriptions reach generated files in two ways that keep the files well formed: inside a
docstring, with backslashes and quotes escaped, and inside a comment, on one line.
-/

namespace FlowGraph.Program

/-- A character inside a docstring. -/
def docstringChar (c : Char) : List Char :=
  match c with
  | '\\' => ['\\', '\\']
  | '"' => ['\\', '"']
  | c => [c]

/-- A text inside a docstring, as characters. -/
def docstringChars (cs : List Char) : List Char := cs.flatMap docstringChar

/-- A text inside a docstring. -/
def docstring (s : String) : String := String.ofList (docstringChars s.toList)

/-- A text inside a comment, as characters: control characters become blanks. -/
def commentChars (cs : List Char) : List Char :=
  cs.map fun c => if Text.isControl c then ' ' else c

/-- A text inside a comment. -/
def comment (s : String) : String := String.ofList (commentChars s.toList)

/-- The text of a file that consists of the given lines. -/
def textOfLines (lines : List String) : String := String.join (lines.map (· ++ "\n"))

/-- The docstring form of a text is built character by character. -/
theorem docstringChars_append (a b : List Char) :
    docstringChars (a ++ b) = docstringChars a ++ docstringChars b := by
  simp [docstringChars]

end FlowGraph.Program
