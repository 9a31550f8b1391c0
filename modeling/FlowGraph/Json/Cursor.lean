import FlowGraph.Json.Fault

/-!
# Places in JSON text

A cursor is the text still to be read and the number of bytes before it.  A reader that meets
something unexpected breaks off right after the unexpected byte, or at the end of the text.
-/

namespace FlowGraph

/-- The rest of a text and the number of bytes before it. -/
structure Cursor where
  offset : Nat
  rest : List Char

namespace Cursor

/-- The number of bytes of some characters. -/
def byteCount (cs : List Char) : Nat := cs.foldr (fun c count => c.utf8Size + count) 0

/-- The start of a text. -/
def start (text : String) : Cursor := ⟨0, text.toList⟩

/-- Break off after the next byte. -/
def unexpected (c : Cursor) (problem : JsonProblem) : JsonBreak := ⟨problem, c.offset + 1⟩

/-- Break off for a problem after the next byte, or for want of any. -/
def missing (c : Cursor) (problem : JsonProblem) : JsonBreak :=
  match c.rest with
  | [] => ⟨.endInValue, c.offset⟩
  | _ => c.unexpected problem

/-- Take the ASCII digits ahead. -/
def digits (c : Cursor) : List Char × Cursor :=
  let found := c.rest.takeWhile Char.isDigit
  (found, ⟨c.offset + found.length, c.rest.dropWhile Char.isDigit⟩)

/-- Take the ASCII digits ahead, at least one. -/
def someDigits (c : Cursor) : Except JsonBreak (List Char × Cursor) :=
  match c.digits with
  | ([], _) => .error (c.missing .invalidNumber)
  | found => .ok found

/-- Take the characters of an ASCII word. -/
def word (c : Cursor) : List Char → Except JsonBreak Cursor
  | [] => .ok c
  | letter :: letters =>
    match c.rest with
    | next :: rest =>
      if next = letter then word ⟨c.offset + 1, rest⟩ letters
      else .error (c.unexpected .wordExpected)
    | [] => .error ⟨.endInValue, c.offset⟩

end Cursor

end FlowGraph
