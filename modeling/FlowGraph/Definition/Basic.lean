import FlowGraph.Definition.Options
import FlowGraph.Json.Basic

/-!
# Workflow definitions

A definition lists nodes and the connections between them, both in declaration order.  A
connection leaves its source through a labelled output.

Current gaps:

- Definitions are built at once; building one step by step is left out, but for a node and its
  parameters.
-/

namespace FlowGraph

/-- A unit of work or a decision. -/
structure Node where
  id : String
  typeTag : String
  name : String := ""
  parameters : Members := []
  options : ActivityOptions := {}
  disabled : Bool := false

namespace Node

/-- A node named after its id, with default options. -/
def new (id typeTag : String) : Node := { id, typeTag, name := id }

/-- Set one parameter. -/
def withParameter (node : Node) (key : String) (value : Json) : Node :=
  { node with parameters := node.parameters.put key value }

/-- The parameter of a name. -/
def parameter? (node : Node) (key : String) : Option Json := node.parameters.lookup key

/-- The name shown to people: the id when no name is given. -/
def displayName (node : Node) : String := if node.name.isEmpty then node.id else node.name

end Node

/-- The label of a connection that names none. -/
def mainLabel : String := "main"

/-- A connection from an output of one node to an input of another. -/
structure Connection where
  source : String
  sourceOutput : String := mainLabel
  target : String
  targetInput : String := mainLabel
deriving DecidableEq

/-- A workflow as written: nodes and connections in declaration order. -/
structure Definition where
  name : String := ""
  description : String := ""
  nodes : List Node
  connections : List Connection := []

end FlowGraph
