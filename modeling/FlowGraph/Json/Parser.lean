import FlowGraph.Json.Token

/-!
# Reading JSON text

The reader is a machine over tokens.  Its frames are the arrays and objects still open, innermost
first, and an expectation says which tokens may follow.  Every token is one step, so a text is
read by one fold, and what is wrong with a token depends on the expectation.

Current gaps:

- Text is a list of characters: bytes that are none are refused by the host before they come here.
-/

namespace FlowGraph

namespace Json

/-- An array or object that is still open. -/
inductive Frame where
  /-- Items read so far, last first. -/
  | array (items : List Json)
  /-- Members read so far, last first, and the name whose value is awaited. -/
  | object (members : List (String × Json)) (key : String)

/-- What may come next. -/
inductive Expectation where
  /-- A value: at the start of the text or after a colon. -/
  | value
  /-- The first item of an array, or its end. -/
  | firstItem
  /-- Another item of an array, after a comma. -/
  | nextItem
  /-- The first name of an object, or its end. -/
  | firstKey
  /-- Another name of an object, after a comma. -/
  | nextKey
  /-- The colon after a name. -/
  | colon
  /-- A comma, or the end of the innermost array or object. -/
  | separator
  /-- The end of the text. -/
  | done (v : Json)

/-- The reader between two tokens. -/
structure Reading where
  frames : List Frame
  expectation : Expectation

namespace Reading

/-- Arrays and objects nest at most this deep. -/
def depthLimit : Nat := 127

/-- Before the first token. -/
def initial : Reading := ⟨[], .value⟩

/-- Refuse a token, right after its first byte. -/
def refuse (t : PlacedToken) (problem : JsonProblem) : Except JsonBreak Reading :=
  .error ⟨problem, t.offset + 1⟩

/-- Hand a complete value to the innermost open frame. -/
def place (frames : List Frame) (v : Json) : Reading :=
  match frames with
  | [] => ⟨[], .done v⟩
  | .array items :: rest => ⟨.array (v :: items) :: rest, .separator⟩
  | .object members key :: rest => ⟨.object ((key, v) :: members) key :: rest, .separator⟩

/-- Open an array or object. -/
def enter (frames : List Frame) (t : PlacedToken) (frame : Frame) (expectation : Expectation) :
    Except JsonBreak Reading :=
  if frames.length < depthLimit then .ok ⟨frame :: frames, expectation⟩
  else refuse t .nestedTooDeep

/-- A token where a value is due. -/
def startValue (frames : List Frame) (t : PlacedToken) : Except JsonBreak Reading :=
  match t.token with
  | .scalar v => .ok (place frames v)
  | .text s => .ok (place frames (.string s))
  | .openArray => enter frames t (.array []) .firstItem
  | .openObject => enter frames t (.object [] "") .firstKey
  | .brokenText b => .error b
  | .brokenScalar b => .error b
  | _ => refuse t .valueExpected

/-- A token where a name is due. -/
def startKey (frames : List Frame) (t : PlacedToken) : Except JsonBreak Reading :=
  match t.token, frames with
  | .text key, .object members _ :: rest => .ok ⟨.object members key :: rest, .colon⟩
  | .brokenText b, _ => .error b
  | _, _ => refuse t .keyExpected

/-- A token where a comma or the end of the innermost frame is due. -/
def separate (frames : List Frame) (t : PlacedToken) : Except JsonBreak Reading :=
  match t.token, frames with
  | .comma, .array _ :: _ => .ok ⟨frames, .nextItem⟩
  | .comma, .object _ _ :: _ => .ok ⟨frames, .nextKey⟩
  | .closeArray, .array items :: rest => .ok (place rest (.array items.reverse))
  | .closeObject, .object members _ :: rest => .ok (place rest (.ofPairs members.reverse))
  | _, .object _ _ :: _ => refuse t .commaOrObjectEndExpected
  | _, _ => refuse t .commaOrArrayEndExpected

/-- Read one token. -/
def step (r : Reading) (t : PlacedToken) : Except JsonBreak Reading :=
  match r.expectation, t.token with
  | .value, _ => startValue r.frames t
  | .firstItem, .closeArray => separate r.frames t
  | .firstItem, _ => startValue r.frames t
  | .nextItem, .closeArray => refuse t .trailingComma
  | .nextItem, _ => startValue r.frames t
  | .firstKey, .closeObject => separate r.frames t
  | .firstKey, _ => startKey r.frames t
  | .nextKey, .closeObject => refuse t .trailingComma
  | .nextKey, _ => startKey r.frames t
  | .colon, .colon => .ok ⟨r.frames, .value⟩
  | .colon, _ => refuse t .colonExpected
  | .separator, _ => separate r.frames t
  | .done _, _ => refuse t .trailingCharacters

/-- What is wrong when the text ends here. -/
def endProblem (r : Reading) : JsonProblem :=
  match r.expectation, r.frames with
  | .firstItem, _ => .endInArray
  | .firstKey, _ => .endInObject
  | .colon, _ => .endInObject
  | .separator, .array _ :: _ => .endInArray
  | .separator, _ => .endInObject
  | _, _ => .endInValue

end Reading

/-- The value that tokens spell, in a text of some bytes. -/
def ofTokens (byteCount : Nat) (tokens : List PlacedToken) : Except JsonBreak Json := do
  let reading ← tokens.foldlM Reading.step Reading.initial
  match reading.expectation with
  | .done v => .ok v
  | _ => .error ⟨reading.endProblem, byteCount⟩

/-- The value that a text spells. -/
def parse (text : String) : Except JsonFault Json :=
  match ofTokens text.utf8ByteSize (JsonToken.scan text) with
  | .ok v => .ok v
  | .error b => .error (.ofBreak text.toList b)

end Json

end FlowGraph
