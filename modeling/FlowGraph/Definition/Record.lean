import FlowGraph.Definition.Basic
import FlowGraph.Json.Record

/-!
# Definitions as JSON records

Member names are camel case.  Every member with a default may be missing; writing fills all of
them in, an empty workflow description excepted.
-/

namespace FlowGraph

open Json (ofPairs ofUInt64)

namespace RetryPolicy

/-- Read a retry policy. -/
def read : ReadAs RetryPolicy := fun v => do
  let ms ← ReadAs.record ["enabled", "maximumAttempts", "initialInterval", "backoffCoefficient",
    "maximumInterval"] v
  let base : RetryPolicy := {}
  return {
    enabled := ← ms.defaulted "enabled" base.enabled .bool
    maximumAttempts := ← ms.defaulted "maximumAttempts" base.maximumAttempts .uint32
    initialInterval := ← ms.defaulted "initialInterval" base.initialInterval .uint64
    backoffCoefficient := ← ms.defaulted "backoffCoefficient" base.backoffCoefficient .real
    maximumInterval := ← ms.defaulted "maximumInterval" base.maximumInterval .uint64 }

/-- Write a retry policy. -/
def toJson (p : RetryPolicy) : Json :=
  ofPairs [
    ("enabled", .bool p.enabled),
    ("maximumAttempts", ofUInt64 p.maximumAttempts.toUInt64),
    ("initialInterval", ofUInt64 p.initialInterval),
    ("backoffCoefficient", .number (.real p.backoffCoefficient)),
    ("maximumInterval", ofUInt64 p.maximumInterval)]

end RetryPolicy

namespace ActivityOptions

/-- Read execution options. -/
def read : ReadAs ActivityOptions := fun v => do
  let ms ← ReadAs.record ["startToCloseTimeout", "scheduleToCloseTimeout", "heartbeatTimeout",
    "retry", "continueOnFail"] v
  let base : ActivityOptions := {}
  return {
    startToCloseTimeout :=
      ← ms.defaulted "startToCloseTimeout" base.startToCloseTimeout .uint64
    scheduleToCloseTimeout :=
      ← ms.defaulted "scheduleToCloseTimeout" base.scheduleToCloseTimeout .uint64
    heartbeatTimeout := ← ms.defaulted "heartbeatTimeout" base.heartbeatTimeout .uint64
    retry := ← ms.defaulted "retry" base.retry RetryPolicy.read
    continueOnFail := ← ms.defaulted "continueOnFail" base.continueOnFail .bool }

/-- Write execution options. -/
def toJson (o : ActivityOptions) : Json :=
  ofPairs [
    ("startToCloseTimeout", ofUInt64 o.startToCloseTimeout),
    ("scheduleToCloseTimeout", ofUInt64 o.scheduleToCloseTimeout),
    ("heartbeatTimeout", ofUInt64 o.heartbeatTimeout),
    ("retry", o.retry.toJson),
    ("continueOnFail", .bool o.continueOnFail)]

end ActivityOptions

namespace Node

/-- Read a node. -/
def read : ReadAs Node := fun v => do
  let ms ← ReadAs.record ["id", "type", "name", "parameters", "options", "disabled"] v
  return {
    id := ← ms.required "id" .string
    typeTag := ← ms.required "type" .string
    name := ← ms.defaulted "name" "" .string
    parameters := ← ms.defaulted "parameters" [] .members
    options := ← ms.defaulted "options" {} ActivityOptions.read
    disabled := ← ms.defaulted "disabled" false .bool }

/-- Write a node. -/
def toJson (node : Node) : Json :=
  ofPairs [
    ("id", .string node.id),
    ("type", .string node.typeTag),
    ("name", .string node.name),
    ("parameters", .object node.parameters),
    ("options", node.options.toJson),
    ("disabled", .bool node.disabled)]

end Node

namespace Connection

/-- Read a connection. -/
def read : ReadAs Connection := fun v => do
  let ms ← ReadAs.record ["source", "sourceOutput", "target", "targetInput"] v
  return {
    source := ← ms.required "source" .string
    sourceOutput := ← ms.defaulted "sourceOutput" mainLabel .string
    target := ← ms.required "target" .string
    targetInput := ← ms.defaulted "targetInput" mainLabel .string }

/-- Write a connection. -/
def toJson (c : Connection) : Json :=
  ofPairs [
    ("source", .string c.source),
    ("sourceOutput", .string c.sourceOutput),
    ("target", .string c.target),
    ("targetInput", .string c.targetInput)]

end Connection

namespace Definition

/-- Read a workflow definition. -/
def read : ReadAs Definition := fun v => do
  let ms ← ReadAs.record ["name", "description", "nodes", "connections"] v
  return {
    name := ← ms.defaulted "name" "" .string
    description := ← ms.defaulted "description" "" .string
    nodes := ← ms.required "nodes" (.list Node.read)
    connections := ← ms.defaulted "connections" [] (.list Connection.read) }

/-- Write a workflow definition; an empty description is left out. -/
def toJson (d : Definition) : Json :=
  ofPairs (
    [("name", .string d.name)] ++
    (if d.description.isEmpty then [] else [("description", .string d.description)]) ++
    [("nodes", .array (d.nodes.map Node.toJson)),
     ("connections", .array (d.connections.map Connection.toJson))])

end Definition

end FlowGraph
