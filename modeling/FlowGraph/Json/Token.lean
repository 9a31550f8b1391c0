import FlowGraph.Json.Numeral

/-!
# Tokens of JSON text

Text is cut into brackets, separators, strings and other scalars, each with the offset of its first
byte.  A piece of text that is no token ends the cutting and is kept as the last token, since what
is wrong with it depends on what was expected in its place.
-/

namespace FlowGraph

/-! ## Strings -/

/-- The value of a hexadecimal digit. -/
def hexDigit? (c : Char) : Option Nat :=
  if c.isDigit then some (c.toNat - '0'.toNat)
  else if 'a' ≤ c ∧ c ≤ 'f' then some (c.toNat - 'a'.toNat + 10)
  else if 'A' ≤ c ∧ c ≤ 'F' then some (c.toNat - 'A'.toNat + 10)
  else none

/-- The value of four hexadecimal digits. -/
def hexUnit? (a b c d : Char) : Option Nat := do
  return ((← hexDigit? a) * 16 + (← hexDigit? b)) * 256 + (← hexDigit? c) * 16 + (← hexDigit? d)

/-- A character escaped by one letter. -/
def shortEscape? : Char → Option Char
  | '"' => some '"'
  | '\\' => some '\\'
  | '/' => some '/'
  | 'b' => some '\x08'
  | 'f' => some '\x0c'
  | 'n' => some '\n'
  | 'r' => some '\r'
  | 't' => some '\t'
  | _ => none

/-- Whether a 16-bit unit is the first half of a surrogate pair. -/
def isHighSurrogate (unit : Nat) : Bool := 0xD800 ≤ unit && unit < 0xDC00

/-- Whether a 16-bit unit is the second half of a surrogate pair. -/
def isLowSurrogate (unit : Nat) : Bool := 0xDC00 ≤ unit && unit < 0xE000

namespace Cursor

/-- Break off where four hexadecimal digits were due. -/
def brokenHex (c : Cursor) : JsonBreak :=
  let available := byteCount c.rest
  if available < 4 then ⟨.endInText, c.offset + available⟩
  else ⟨.invalidEscape, c.offset + 4⟩

/-- Break off where the second half of a surrogate pair was due. -/
def brokenPair (c : Cursor) : JsonBreak :=
  match c.rest with
  | [] => ⟨.endInText, c.offset⟩
  | '\\' :: [] => ⟨.endInText, c.offset + 1⟩
  | '\\' :: 'u' :: rest => brokenHex ⟨c.offset + 2, rest⟩
  | '\\' :: _ => ⟨.brokenSurrogatePair, c.offset + 2⟩
  | _ => ⟨.brokenSurrogatePair, c.offset + 1⟩

/-- Break off where an escape was due. -/
def brokenEscape (c : Cursor) : JsonBreak :=
  match c.rest with
  | [] => ⟨.endInText, c.offset⟩
  | 'u' :: rest => brokenHex ⟨c.offset + 1, rest⟩
  | _ => ⟨.invalidEscape, c.offset + 1⟩

/-- Take the rest of a string after its opening quote.  `read` holds the characters so far, last
first, and `offset` counts the bytes before the rest.  A surrogate is accepted only as half of a
pair, a control character only escaped. -/
def textFrom (read : List Char) (offset : Nat) : List Char → Except JsonBreak (String × Cursor)
  | [] => .error ⟨.endInText, offset⟩
  | '"' :: rest => .ok (String.ofList read.reverse, ⟨offset + 1, rest⟩)
  | '\\' :: 'u' :: a :: b :: c :: d :: rest =>
    match hexUnit? a b c d with
    | none => .error (brokenHex ⟨offset + 2, a :: b :: c :: d :: rest⟩)
    | some unit =>
      if isLowSurrogate unit then .error ⟨.loneSurrogate, offset + 6⟩
      else if isHighSurrogate unit then
        match rest with
        | '\\' :: 'u' :: a :: b :: c :: d :: rest =>
          match hexUnit? a b c d with
          | none => .error (brokenHex ⟨offset + 8, a :: b :: c :: d :: rest⟩)
          | some low =>
            if isLowSurrogate low then
              let code := 0x10000 + (unit - 0xD800) * 0x400 + (low - 0xDC00)
              textFrom (Char.ofNat code :: read) (offset + 12) rest
            else .error ⟨.loneSurrogate, offset + 12⟩
        | _ => .error (brokenPair ⟨offset + 6, rest⟩)
      else textFrom (Char.ofNat unit :: read) (offset + 6) rest
  | '\\' :: c :: rest =>
    match shortEscape? c with
    | none => .error (brokenEscape ⟨offset + 1, c :: rest⟩)
    | some escaped => textFrom (escaped :: read) (offset + 2) rest
  | c :: rest =>
    if c = '\\' then .error (brokenEscape ⟨offset + 1, rest⟩)
    else if c.toNat < 0x20 then .error ⟨.controlCharacter, offset + 1⟩
    else textFrom (c :: read) (offset + c.utf8Size) rest

end Cursor

/-! ## Tokens -/

/-- A token of JSON text. -/
inductive JsonToken where
  | openObject
  | closeObject
  | openArray
  | closeArray
  | colon
  | comma
  | text (s : String)
  | scalar (v : Json)
  /-- A string that breaks off. -/
  | brokenText (b : JsonBreak)
  /-- Another scalar that breaks off. -/
  | brokenScalar (b : JsonBreak)
  /-- A character that no token starts with. -/
  | stray

/-- A token and the offset of its first byte. -/
structure PlacedToken where
  token : JsonToken
  offset : Nat

namespace JsonToken

/-- Blanks between tokens. -/
def isBlank (c : Char) : Bool := c = ' ' || c = '\n' || c = '\t' || c = '\r'

/-- A scalar, or what stands in its place. -/
def ofScalar (c : Cursor) : Except JsonBreak (Json × Cursor) → JsonToken × Cursor
  | .ok (v, c) => (.scalar v, c)
  | .error b => (.brokenScalar b, c)

/-- A scalar spelled by one word. -/
def ofWord (c : Cursor) (word : String) (v : Json) : JsonToken × Cursor :=
  ofScalar c ((c.word word.toList).map fun c => (v, c))

/-- The token at a cursor, whose next character is `c`, with the cursor after it. -/
def first (cursor : Cursor) (c : Char) (rest : List Char) : JsonToken × Cursor :=
  let after : Cursor := ⟨cursor.offset + 1, rest⟩
  match c with
  | '\x7b' => (.openObject, after)
  | '\x7d' => (.closeObject, after)
  | '[' => (.openArray, after)
  | ']' => (.closeArray, after)
  | ':' => (.colon, after)
  | ',' => (.comma, after)
  | '"' =>
    match Cursor.textFrom [] after.offset rest with
    | .ok (s, after) => (.text s, after)
    | .error b => (.brokenText b, after)
  | 'n' => ofWord cursor "null" .null
  | 't' => ofWord cursor "true" (.bool true)
  | 'f' => ofWord cursor "false" (.bool false)
  | c =>
    if c.isDigit || c = '-' then
      ofScalar cursor (cursor.number.map fun (n, after) => (.number n, after))
    else (.stray, after)

/-- Whether nothing after a token matters. -/
def isLast : JsonToken → Bool
  | .brokenText _ | .brokenScalar _ | .stray => true
  | _ => false

/-- Collect the tokens of a text, last first, in at most `fuel` steps. -/
def scanFrom (fuel : Nat) (read : List PlacedToken) (c : Cursor) : List PlacedToken :=
  match fuel, c.rest with
  | 0, _ => read.reverse
  | _, [] => read.reverse
  | fuel + 1, next :: rest =>
    if isBlank next then scanFrom fuel read ⟨c.offset + 1, rest⟩
    else
      let (token, after) := first c next rest
      let read := ⟨token, c.offset⟩ :: read
      if token.isLast then read.reverse else scanFrom fuel read after

/-- The tokens of a text; every step takes at least one character. -/
def scan (text : String) : List PlacedToken :=
  let c := Cursor.start text
  scanFrom c.rest.length [] c

end JsonToken

end FlowGraph
