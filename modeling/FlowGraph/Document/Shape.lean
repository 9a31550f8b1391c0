import FlowGraph.Definition.Record
import FlowGraph.Document.Violation
import FlowGraph.Text.Blank

/-!
# The shape of workflow documents

Every member is checked on its own, so one pass reports every fault, each at its own place.  A
null member reads as an absent one throughout the document's own objects; parameters are left as
they are.  A document without faults is read as a definition.
-/

namespace FlowGraph

/-! ## Checks of single members -/

/-- A check of a member that may be absent: nothing, or what is wrong with it. -/
abbrev Check := Option Json → Option Problem

namespace Check

/-- A string with a visible character. -/
def requiredText : Check
  | some (.string s) => if Text.allBlank s then some .emptyText else none
  | some _ => some .notString
  | none => some .missing

/-- Accept an absent or null member and check any other. -/
def optional (check : Json → Option Problem) : Check
  | none => none
  | some .null => none
  | some v => check v

/-- A string, if any. -/
def text : Check := optional fun
  | .string _ => none
  | _ => some .notString

/-- A boolean, if any. -/
def flag : Check := optional fun
  | .bool _ => none
  | _ => some .notBoolean

/-- An object, if any. -/
def object : Check := optional fun
  | .object _ => none
  | _ => some .notObject

/-- A non-negative integer, if any. -/
def natural : Check := optional fun v =>
  if v.uint64?.isSome then none else some .notNatural

/-- A positive integer, if any; zero is the given problem. -/
def positive (zero : Problem) : Check := optional fun v =>
  match v.uint64? with
  | some n => if n = 0 then some zero else none
  | none => some .notNatural

/-- A number not below one, if any. -/
def coefficient : Check := optional fun v =>
  match v.real? with
  | some x => if Decimal.Binary64.one.value ≤ x.value then none else some .coefficientBelowOne
  | none => some .coefficientBelowOne

/-- A string with a character, if any. -/
def label : Check := optional fun
  | .string s => if s.isEmpty then some .emptyLabel else none
  | _ => some .emptyLabel

end Check

/-! ## Checks of objects -/

/-- A problem and the names that lead to its member. -/
abbrev Finding := List String × Problem

namespace Finding

/-- Check members one by one, in the given order. -/
def ofChecks (members : Members) (checks : List (String × Check)) : List Finding :=
  checks.filterMap fun entry =>
    (entry.2 (members.lookup entry.1)).map fun problem => ([entry.1], problem)

/-- Findings in the object under a name, one level up. -/
def under (key : String) (findings : List Finding) : List Finding :=
  findings.map fun finding => (key :: finding.1, finding.2)

/-- Check an optional object and, if it is one, its members. -/
def ofObject (members : Members) (key : String) (inside : Members → List Finding) :
    List Finding :=
  match members.lookup key with
  | some (.object inner) => under key (inside inner)
  | other => (Check.object other).toList.map fun problem => ([key], problem)

/-- Faults of a retry policy. -/
def ofRetry (retry : Members) : List Finding :=
  ofChecks retry [
    ("enabled", .flag),
    ("maximumAttempts", .positive .belowOne),
    ("initialInterval", .natural),
    ("maximumInterval", .natural),
    ("backoffCoefficient", .coefficient)]

/-- Faults of execution options. -/
def ofOptions (options : Members) : List Finding :=
  ofChecks options [
    ("startToCloseTimeout", .positive .belowOneSecond),
    ("scheduleToCloseTimeout", .natural),
    ("heartbeatTimeout", .natural),
    ("continueOnFail", .flag)] ++
  ofObject options "retry" ofRetry

/-- Faults of a node. -/
def ofNode (node : Members) : List Finding :=
  ofChecks node [
    ("id", .requiredText),
    ("type", .requiredText),
    ("name", .text),
    ("parameters", .object),
    ("disabled", .flag)] ++
  ofObject node "options" ofOptions

/-- Faults of a connection. -/
def ofConnection (connection : Members) : List Finding :=
  ofChecks connection [
    ("source", .requiredText),
    ("target", .requiredText),
    ("sourceOutput", .label),
    ("targetInput", .label)]

end Finding

/-! ## Checks of documents -/

namespace Document

/-- Faults of the node at an index; they carry the node's id when it is a string. -/
def nodeViolations (index : Nat) (v : Json) : List Violation :=
  match v with
  | .object node =>
    let id := (node.lookup "id").bind Json.string?
    (Finding.ofNode node).map fun finding =>
      .shape (.item "nodes" index finding.1) id finding.2
  | _ => [.shape (.item "nodes" index []) none .nodeNotObject]

/-- Faults of the connection at an index. -/
def connectionViolations (index : Nat) (v : Json) : List Violation :=
  match v with
  | .object connection =>
    (Finding.ofConnection connection).map fun finding =>
      .shape (.item "connections" index finding.1) none finding.2
  | _ => [.shape (.item "connections" index []) none .connectionNotObject]

/-- Faults of the items of a list. -/
def itemViolations (check : Nat → Json → List Violation) (items : List Json) : List Violation :=
  items.zipIdx.flatMap fun item => check item.2 item.1

/-- Every fault in the shape of a document. -/
def violations : Json → List Violation
  | .object root =>
    (Finding.ofChecks root [("name", .text), ("description", .text)]).map
      (fun finding => .shape (.member (".".intercalate finding.1)) none finding.2) ++
    (match root.lookup "nodes" with
      | some (.array nodes) => itemViolations nodeViolations nodes
      | some _ => [.shape (.member "nodes") none .notArray]
      | none => [.shape (.member "nodes") none .missing]) ++
    (match root.lookup "connections" with
      | some (.array connections) => itemViolations connectionViolations connections
      | some .null => []
      | none => []
      | some _ => [.shape (.member "connections") none .notArray])
  | _ => [.shape .document none .documentNotObject]

/-! ## Reading -/

/-- Members that are not null. -/
def present (members : Members) : Members := members.filter fun m => !m.2.isNull

/-- Apply a function to the object under a name, if there is one. -/
def mapObject (key : String) (f : Members → Members) (members : Members) : Members :=
  members.map fun m =>
    match m with
    | (k, .object inner) => if k = key then (k, .object (f inner)) else m
    | _ => m

/-- Apply a function to every object in the list under a name. -/
def mapItems (key : String) (f : Members → Members) (members : Members) : Members :=
  members.map fun m =>
    match m with
    | (k, .array items) =>
      if k = key then
        (k, .array (items.map fun
          | .object inner => .object (f inner)
          | other => other))
      else m
    | _ => m

/-- A node or connection without null members, down to its retry policy. -/
def presentItem (item : Members) : Members :=
  mapObject "options" (fun options => mapObject "retry" present (present options)) (present item)

/-- A document without null members in its own objects. -/
def withoutNulls : Json → Json
  | .object root =>
    .object (mapItems "connections" presentItem (mapItems "nodes" presentItem (present root)))
  | other => other

/-- Read a document as a definition, or refuse it with every fault. -/
def read (document : Json) : Except (List Violation) Definition :=
  match violations document with
  | [] =>
    match Definition.read (withoutNulls document) with
    | .ok definition => .ok definition
    | .error fault => .error [.shape .document none (.unreadable fault)]
  | faults => .error faults

end Document

end FlowGraph
