import FlowGraph.Definition.Basic
import FlowGraph.Document.Violation
import Std.Data.HashMap

/-!
# The meaning of workflow definitions

A definition makes sense when its node ids are distinct and every connection joins declared
nodes.  Repeated ids are reported first, in node order, then connections with an undeclared end.
-/

namespace FlowGraph.Definition

/-- Report every node whose id is already among those `seen`, which maps an id to the index of its
first node. -/
def duplicatesFrom (seen : Std.HashMap String Nat) (index : Nat) : List Node → List Violation
  | [] => []
  | node :: rest =>
    match seen[node.id]? with
    | some first => .duplicateId node.id first index :: duplicatesFrom seen (index + 1) rest
    | none => duplicatesFrom (seen.insert node.id index) (index + 1) rest

/-- One violation for each node that repeats an earlier id. -/
def duplicates (nodes : List Node) : List Violation := duplicatesFrom ∅ 0 nodes

/-- The ends of a connection that are not declared, the source first, each once. -/
def missingEnds (declared : String → Bool) (c : Connection) : List String :=
  (if declared c.source then [] else [c.source]) ++
    (if declared c.target || c.target = c.source then [] else [c.target])

/-- The violation of the connection at an index, if an end is missing. -/
def danglingEnd? (declared : String → Bool) (index : Nat) (c : Connection) : Option Violation :=
  match missingEnds declared c with
  | [] => none
  | missing => some (.reference index c.source c.target missing)

/-- The ids of the nodes, for look-up. -/
def declaredIds (nodes : List Node) : Std.HashMap String Node :=
  nodes.foldl (fun ids node => ids.insertIfNew node.id node) ∅

/-- One violation for each connection with an undeclared end. -/
def danglingEnds (nodes : List Node) (connections : List Connection) : List Violation :=
  let ids := declaredIds nodes
  connections.zipIdx.filterMap fun c => danglingEnd? ids.contains c.2 c.1

/-- Every violation of a definition's meaning. -/
def violations (d : Definition) : List Violation :=
  duplicates d.nodes ++ danglingEnds d.nodes d.connections

end FlowGraph.Definition
