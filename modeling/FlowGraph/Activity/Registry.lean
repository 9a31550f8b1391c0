import FlowGraph.Activity.Builtin

/-!
# Handler registries

A registry maps type tags to handlers.  A trigger without a handler of its own passes its payload
through.
-/

namespace FlowGraph

/-- Handlers by type tag; the first of a tag counts. -/
structure Registry where
  handlers : List (String × Handler)

namespace Registry

/-- No handlers. -/
def empty : Registry := ⟨[]⟩

/-- The built-in handlers. -/
def builtin : Registry := ⟨Builtin.handlers⟩

/-- Register a handler, replacing an earlier one of the tag. -/
def register (r : Registry) (typeTag : String) (handler : Handler) : Registry :=
  ⟨(typeTag, handler) :: r.handlers.filter fun entry => !(entry.1 == typeTag)⟩

/-- The handler of a type tag. -/
def handler? (r : Registry) (typeTag : String) : Option Handler :=
  match r.handlers.lookup typeTag with
  | some handler => some handler
  | none =>
    if (NodeKind.ofTag typeTag).isTrigger then some (.immediate Builtin.passThrough) else none

/-- Whether a type tag has a handler. -/
def contains (r : Registry) (typeTag : String) : Bool := (r.handler? typeTag).isSome

/-- The registered type tags in order. -/
def tags (r : Registry) : List String :=
  (r.handlers.map Prod.fst).mergeSort fun a b => decide (a ≤ b)

end Registry

end FlowGraph
