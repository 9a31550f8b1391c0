import FlowGraph.Json.Record

/-!
# Violations

A document is refused with every violation found in one pass.  A violation of the document's
shape names the place of the faulty member; a violation of its meaning names the nodes or the
connection concerned.
-/

namespace FlowGraph

/-- A place in a document. -/
inductive Place where
  /-- The document itself. -/
  | document
  /-- A member of the document. -/
  | member (key : String)
  /-- An item of a list of the document, or a member below it. -/
  | item (list : String) (index : Nat) (keys : List String)
deriving DecidableEq

namespace Place

/-- The place as a path. -/
def text : Place → String
  | .document => "$"
  | .member key => "$." ++ key
  | .item list index keys =>
    list ++ "[" ++ toString index ++ "]" ++ String.join (keys.map ("." ++ ·))

end Place

/-- What is wrong with a member. -/
inductive Problem where
  | documentNotObject
  | nodeNotObject
  | connectionNotObject
  | missing
  | notString
  | emptyText
  | emptyLabel
  | notArray
  | notObject
  | notBoolean
  | notNatural
  | belowOneSecond
  | belowOne
  | coefficientBelowOne
  | unreadable (fault : ReadFault)
deriving DecidableEq

namespace Problem

/-- The problem in words. -/
def message : Problem → String
  | .documentNotObject => "workflow document must be an object"
  | .nodeNotObject => "node must be an object"
  | .connectionNotObject => "connection must be an object"
  | .missing => "is required"
  | .notString => "must be a string"
  | .emptyText => "must not be empty"
  | .emptyLabel => "must be a non-empty string"
  | .notArray => "must be an array"
  | .notObject => "must be an object"
  | .notBoolean => "must be a boolean"
  | .notNatural => "must be a non-negative integer"
  | .belowOneSecond => "must be at least 1 second"
  | .belowOne => "must be at least 1"
  | .coefficientBelowOne => "must be a number >= 1.0"
  | .unreadable fault => fault.message

end Problem

/-- One reason to refuse a document. -/
inductive Violation where
  /-- A member does not have the expected shape. -/
  | shape (place : Place) (nodeId : Option String) (problem : Problem)
  /-- A connection names nodes that do not exist. -/
  | reference (index : Nat) (source target : String) (missing : List String)
  /-- A node repeats the id of an earlier one. -/
  | duplicateId (id : String) (first duplicate : Nat)
deriving DecidableEq

namespace Violation

/-- The violation in words. -/
def message : Violation → String
  | .shape place nodeId problem =>
    let node := match nodeId with
      | some id => " (node '" ++ id ++ "')"
      | none => ""
    "schema error at " ++ place.text ++ node ++ ": " ++ problem.message
  | .reference index source target missing =>
    "connection #" ++ toString index ++ " (" ++ source ++ " -> " ++ target ++
      ") references unknown node(s): " ++ ", ".intercalate missing
  | .duplicateId id first duplicate =>
    "duplicate node id '" ++ id ++ "' at nodes[" ++ toString duplicate ++
      "] (first declared at nodes[" ++ toString first ++ "])"

/-- All violations of one pass in words, one a line below a count. -/
def report (violations : List Violation) : String :=
  "workflow is invalid (" ++ toString violations.length ++ " error(s))" ++
    String.join (violations.map fun v => "\n  - " ++ v.message)

end Violation

end FlowGraph
