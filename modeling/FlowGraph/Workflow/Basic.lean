import FlowGraph.Document.Meaning
import FlowGraph.Document.Shape
import FlowGraph.Workflow.Graph

/-!
# Workflows

A workflow is a definition without violations, with its nodes indexed by id and its graph built
once.
-/

namespace FlowGraph

/-- A validated workflow. -/
structure Workflow where
  definition : Definition
  sound : definition.violations = []
  index : Std.HashMap String Node
  index_eq : index = Definition.declaredIds definition.nodes
  graph : Graph
  graph_eq : graph = Graph.ofParts definition.nodes definition.connections

/-- Why a workflow has no place to start. -/
inductive StartFault where
  | noStartNodes
  | unknownStart (id : String)
deriving DecidableEq

namespace StartFault

/-- The fault in words. -/
def message : StartFault → String
  | .noStartNodes => "no start nodes found (every node has an incoming connection)"
  | .unknownStart id => "explicit start node not found: " ++ id

end StartFault

namespace Workflow

/-- The workflow of a definition without violations. -/
def ofSound (d : Definition) (sound : d.violations = []) : Workflow where
  definition := d
  sound := sound
  index := Definition.declaredIds d.nodes
  index_eq := rfl
  graph := Graph.ofParts d.nodes d.connections
  graph_eq := rfl

/-- Validate a definition. -/
def ofDefinition (d : Definition) : Except (List Violation) Workflow :=
  match sound : d.violations with
  | [] => .ok (ofSound d sound)
  | faults => .error faults

/-- Validate a document: its shape, then its meaning. -/
def ofDocument (document : Json) : Except (List Violation) Workflow := do
  ofDefinition (← Document.read document)

/-- The name as written. -/
def name (w : Workflow) : String := w.definition.name

/-- The description as written. -/
def description (w : Workflow) : String := w.definition.description

/-- Nodes in declaration order. -/
def nodes (w : Workflow) : List Node := w.definition.nodes

/-- Connections in declaration order. -/
def connections (w : Workflow) : List Connection := w.definition.connections

/-- The node of an id. -/
def node? (w : Workflow) (id : String) : Option Node := w.index[id]?

/-- Where a run starts: the given nodes, which must all exist, or without any the nodes that no
connection enters. -/
def startNodes (w : Workflow) (explicit : Option (List String)) :
    Except StartFault (List String) :=
  let detected :=
    if w.graph.starts.isEmpty then .error .noStartNodes else .ok w.graph.starts
  match explicit with
  | none => detected
  | some ids =>
    match ids.find? fun id => !w.index.contains id with
    | some unknown => .error (.unknownStart unknown)
    | none => if ids.isEmpty then detected else .ok ids

end Workflow

end FlowGraph
