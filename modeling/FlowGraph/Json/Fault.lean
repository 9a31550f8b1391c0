/-!
# Faults of JSON text

A text that is no JSON value is refused for one problem, at the line and column where it is
noticed.  Columns count bytes.
-/

namespace FlowGraph

/-- What is wrong with a text. -/
inductive JsonProblem where
  | endInValue
  | endInText
  | endInArray
  | endInObject
  | valueExpected
  | wordExpected
  | colonExpected
  | commaOrArrayEndExpected
  | commaOrObjectEndExpected
  | keyExpected
  | trailingComma
  | trailingCharacters
  | invalidNumber
  | numberOutOfRange
  | invalidEscape
  | loneSurrogate
  | brokenSurrogatePair
  | controlCharacter
  | nestedTooDeep
deriving DecidableEq

namespace JsonProblem

/-- The problem in words. -/
def message : JsonProblem → String
  | .endInValue => "EOF while parsing a value"
  | .endInText => "EOF while parsing a string"
  | .endInArray => "EOF while parsing a list"
  | .endInObject => "EOF while parsing an object"
  | .valueExpected => "expected value"
  | .wordExpected => "expected ident"
  | .colonExpected => "expected `:`"
  | .commaOrArrayEndExpected => "expected `,` or `]`"
  | .commaOrObjectEndExpected => "expected `,` or `\x7d`"
  | .keyExpected => "key must be a string"
  | .trailingComma => "trailing comma"
  | .trailingCharacters => "trailing characters"
  | .invalidNumber => "invalid number"
  | .numberOutOfRange => "number out of range"
  | .invalidEscape => "invalid escape"
  | .loneSurrogate => "lone leading surrogate in hex escape"
  | .brokenSurrogatePair => "unexpected end of hex escape"
  | .controlCharacter =>
    "control character (\\u0000-\\u001F) found while parsing a string"
  | .nestedTooDeep => "recursion limit exceeded"

end JsonProblem

/-- A problem and the number of bytes read when it is noticed. -/
structure JsonBreak where
  problem : JsonProblem
  offset : Nat
deriving DecidableEq

/-- A problem and where it is noticed. -/
structure JsonFault where
  problem : JsonProblem
  line : Nat
  column : Nat
deriving DecidableEq

namespace JsonFault

/-- The fault in words. -/
def message (f : JsonFault) : String :=
  f.problem.message ++ " at line " ++ toString f.line ++ " column " ++ toString f.column

/-- Find a byte offset in a text, given the line at the start of the text, the offset at which
that line starts, and the offset reached. -/
def placeFrom (offset line lineStart reached : Nat) : List Char → Nat × Nat
  | [] => (line, offset - lineStart)
  | c :: rest =>
    if offset ≤ reached then (line, offset - lineStart)
    else
      let reached := reached + c.utf8Size
      if c = '\n' then placeFrom offset (line + 1) reached reached rest
      else placeFrom offset line lineStart reached rest

/-- The fault of a break in a text: the line of the offset, and how many bytes of that line precede
it. -/
def ofBreak (cs : List Char) (b : JsonBreak) : JsonFault :=
  let (line, column) := placeFrom b.offset 1 0 0 cs
  ⟨b.problem, line, column⟩

end JsonFault

end FlowGraph
