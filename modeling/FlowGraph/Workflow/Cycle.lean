import FlowGraph.Workflow.Basic

/-!
# Cycles

A depth-first search marks a node open when it is entered and closed when its edges are used up.
An edge into an open node closes a cycle.  The search keeps its own stack, so chains of any
length are searched.
-/

namespace FlowGraph

/-- How far the search has come with a node. -/
inductive Mark where
  | opened
  | closed
deriving DecidableEq

/-- The search between two steps: marks, and the open nodes with their untried targets, innermost
first. -/
structure CycleSearch where
  marks : Std.HashMap String Mark
  stack : List (String × List String)

namespace CycleSearch

/-- Enter an unmarked node. -/
def enter (g : Graph) (s : CycleSearch) (id : String) : CycleSearch :=
  ⟨s.marks.insert id .opened, (id, g.fanOut id) :: s.stack⟩

/-- Search until the stack is empty or an edge enters an open node, at most `fuel` steps. -/
def run (g : Graph) (fuel : Nat) (s : CycleSearch) :
    Except String (Std.HashMap String Mark) :=
  match fuel, s.stack with
  | _, [] => .ok s.marks
  | 0, _ => .ok s.marks
  | fuel + 1, (id, []) :: rest => run g fuel ⟨s.marks.insert id .closed, rest⟩
  | fuel + 1, (id, target :: targets) :: rest =>
    match s.marks[target]? with
    | some .opened => .error target
    | some .closed => run g fuel ⟨s.marks, (id, targets) :: rest⟩
    | none => run g fuel (enter g ⟨s.marks, (id, targets) :: rest⟩ target)

/-- Search from every unmarked node in turn. -/
def fromNodes (g : Graph) (fuel : Nat) (marks : Std.HashMap String Mark) :
    List String → Option String
  | [] => none
  | id :: rest =>
    if marks.contains id then fromNodes g fuel marks rest
    else
      match run g fuel (enter g ⟨marks, []⟩ id) with
      | .error found => some found
      | .ok marks => fromNodes g fuel marks rest

end CycleSearch

/-- A node on a cycle, if there is one.  Every step closes a node or uses up a connection. -/
def Workflow.findCycle (w : Workflow) : Option String :=
  CycleSearch.fromNodes w.graph (w.nodes.length + w.connections.length) ∅ (w.nodes.map Node.id)

end FlowGraph
