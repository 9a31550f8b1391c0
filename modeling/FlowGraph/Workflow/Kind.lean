/-!
# Kinds of nodes

The last dot-separated segment of a type tag decides how the traversal treats a node: a trigger
passes its payload on, a router selects among its connections, anything else is work to dispatch.
Upper and lower case of ASCII letters are one.
-/

namespace FlowGraph

/-- The two kinds of routers. -/
inductive RouterKind where
  /-- Two-way, by a predicate. -/
  | ifRouter
  /-- Many-way, by named cases. -/
  | switchRouter
deriving DecidableEq

/-- How the traversal treats a node. -/
inductive NodeKind where
  | trigger
  | router (kind : RouterKind)
  | activity
deriving DecidableEq

/-- The part of a text after its last dot, as characters. -/
def lastSegment (cs : List Char) : List Char :=
  (cs.reverse.takeWhile (· ≠ '.')).reverse

/-- The last segment of a type tag. -/
def typeSegment (typeTag : String) : String := String.ofList (lastSegment typeTag.toList)

namespace NodeKind

/-- The kind named by a type tag. -/
def ofTag (typeTag : String) : NodeKind :=
  let segment := (lastSegment typeTag.toList).map Char.toLower
  if segment = "if".toList then .router .ifRouter
  else if segment = "switch".toList ∨ segment = "router".toList then .router .switchRouter
  else if segment = "start".toList ∨ "trigger".toList.isSuffixOf segment then .trigger
  else .activity

/-- Whether the kind is a trigger. -/
def isTrigger : NodeKind → Bool
  | .trigger => true
  | _ => false

/-- Whether the kind is a router. -/
def isRouter : NodeKind → Bool
  | .router _ => true
  | _ => false

end NodeKind

end FlowGraph
