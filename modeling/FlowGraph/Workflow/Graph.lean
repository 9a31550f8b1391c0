import FlowGraph.Definition.Basic
import Std.Data.HashMap
import Std.Data.HashSet

/-!
# The graph of connections

Outgoing edges and source nodes are indexed by node, both in the declaration order of the
connections.  A start node is one that no connection enters.

Main results:

- Theorem `outgoing_ofConnections`: the outgoing edges of a node are its connections, in order.
- Theorem `sources_ofConnections`: the source nodes of a node are the sources of the
  connections that enter it, in order.
-/

namespace FlowGraph

/-- A connection seen from its source. -/
structure Edge where
  target : String
  label : String
deriving DecidableEq

/-- Connections indexed by either end. -/
structure Graph where
  /-- Outgoing edges by source, for nodes that have any. -/
  adjacency : Std.HashMap String (List Edge)
  /-- Source nodes by target, for nodes that have any. -/
  reverse : Std.HashMap String (List String)
  /-- Nodes without an incoming connection, in node order. -/
  starts : List String

namespace Graph

/-- Put a value in front of the list under a key. -/
def pushFront {α : Type} (lists : Std.HashMap String (List α)) (key : String) (a : α) :
    Std.HashMap String (List α) :=
  lists.insert key (a :: lists.getD key [])

/-- Outgoing edges by source, in declaration order. -/
def adjacencyOf (connections : List Connection) : Std.HashMap String (List Edge) :=
  connections.foldr (fun c lists => pushFront lists c.source ⟨c.target, c.sourceOutput⟩) ∅

/-- Source nodes by target, in declaration order. -/
def reverseOf (connections : List Connection) : Std.HashMap String (List String) :=
  connections.foldr (fun c lists => pushFront lists c.target c.source) ∅

/-- The ids that no connection enters, in the given order. -/
def startsOf (ids : List String) (connections : List Connection) : List String :=
  let targets := connections.foldl (fun set c => set.insert c.target) (∅ : Std.HashSet String)
  ids.filter fun id => !targets.contains id

/-- The graph of some nodes and connections. -/
def ofParts (nodes : List Node) (connections : List Connection) : Graph where
  adjacency := adjacencyOf connections
  reverse := reverseOf connections
  starts := startsOf (nodes.map Node.id) connections

/-- Outgoing edges of a node. -/
def outgoing (g : Graph) (id : String) : List Edge := g.adjacency.getD id []

/-- Source nodes of a node. -/
def sources (g : Graph) (id : String) : List String := g.reverse.getD id []

/-- The distinct labels of a node's outgoing edges, in order of first use. -/
def labels (g : Graph) (id : String) : List String := ((g.outgoing id).map Edge.label).eraseDups

/-- The targets that a label of a node leads to. -/
def targetsFor (g : Graph) (id label : String) : List String :=
  ((g.outgoing id).filter fun edge => edge.label = label).map Edge.target

/-- Every target of a node, whatever the label. -/
def fanOut (g : Graph) (id : String) : List String := (g.outgoing id).map Edge.target

/-! ## What the indexes hold -/

theorem getD_pushFront {α : Type} (lists : Std.HashMap String (List α)) (key name : String)
    (a : α) :
    (pushFront lists key a).getD name [] =
      if key = name then a :: lists.getD name [] else lists.getD name [] := by
  unfold pushFront
  rw [Std.HashMap.getD_insert]
  by_cases h : key = name <;> simp [h]

/-- The outgoing edges of a node are its connections, in order. -/
theorem outgoing_ofConnections (nodes : List Node) (connections : List Connection) (id : String) :
    (ofParts nodes connections).outgoing id =
      (connections.filter fun c => c.source = id).map fun c => ⟨c.target, c.sourceOutput⟩ := by
  show (adjacencyOf connections).getD id [] = _
  induction connections with
  | nil => simp [adjacencyOf]
  | cons c rest ih =>
    have unfolded : adjacencyOf (c :: rest) =
      pushFront (adjacencyOf rest) c.source ⟨c.target, c.sourceOutput⟩ := rfl
    rw [unfolded, getD_pushFront, ih]
    by_cases h : c.source = id <;> simp [h]

/-- The source nodes of a node are the sources of the connections that enter it, in order. -/
theorem sources_ofConnections (nodes : List Node) (connections : List Connection) (id : String) :
    (ofParts nodes connections).sources id =
      (connections.filter fun c => c.target = id).map Connection.source := by
  show (reverseOf connections).getD id [] = _
  induction connections with
  | nil => simp [reverseOf]
  | cons c rest ih =>
    have unfolded : reverseOf (c :: rest) = pushFront (reverseOf rest) c.target c.source := rfl
    rw [unfolded, getD_pushFront, ih]
    by_cases h : c.target = id <;> simp [h]

end Graph

end FlowGraph
