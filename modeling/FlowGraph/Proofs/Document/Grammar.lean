import FlowGraph.Definition.Basic
import FlowGraph.Text.Blank
import Mathlib.Data.List.Forall2

/-!
# The grammar of workflow documents

The grammar is stated twice, both times without reference to how a document is
checked or read.  `Document.WellShaped` says which members a document may have,
object by object.  `Definition.SpelledBy` says which definition a document
spells: every field is the value of its member, or its default where the member
is null or missing.

Main results:

- Theorem `Document.wellShaped_iff`: the documents that spell a definition are
  those of the grammar.
-/

namespace FlowGraph

open Decimal (Binary64)

/-! ## Values -/

/-- How a JSON value spells a value of a type. -/
abbrev Spelling (α : Type) := Json → α → Prop

/-- A number that is one or more. -/
def Number.AtLeastOne : Number → Prop
  | .integer i => 1 ≤ i.val
  | .real x => Binary64.one.value ≤ x.value

instance : DecidablePred Number.AtLeastOne
  | .integer _ => inferInstanceAs (Decidable (1 ≤ _))
  | .real _ => inferInstanceAs (Decidable (_ ≤ _))

namespace Spelling

variable {α : Type}

/-- The values that a spelling gives a meaning. -/
def Accepts (spelling : Spelling α) (v : Json) : Prop := ∃ x, spelling v x

/-- A string. -/
def text : Spelling String := fun v s => v = .string s

/-- A string with a character that is not blank. -/
def visible : Spelling String := fun v s => v = .string s ∧ Text.allBlank s = false

/-- A string with a character. -/
def label : Spelling String := fun v s => v = .string s ∧ s ≠ ""

/-- A boolean. -/
def flag : Spelling Bool := fun v b => v = .bool b

/-- An unsigned 64-bit integer. -/
def natural : Spelling UInt64 := fun v n => v = .ofUInt64 n

/-- A positive 64-bit integer. -/
def positive : Spelling UInt64 := fun v n => v = .ofUInt64 n ∧ 1 ≤ n

/-- A positive 32-bit integer. -/
def attempts : Spelling UInt32 := fun v n => v = .ofUInt64 n.toUInt64 ∧ 1 ≤ n

/-- A number that is one or more, rounded to a binary64. -/
def coefficient : Spelling Binary64 := fun v x =>
  ∃ n : Number, v = .number n ∧ n.AtLeastOne ∧ x = n.toReal

/-- An object, with its members as they are. -/
def members : Spelling Members := fun v ms => v = .object ms

/-- An object whose members spell a value. -/
def object (inside : Members → α → Prop) : Spelling α := fun v x =>
  ∃ ms, v = .object ms ∧ inside ms x

/-- An array whose items spell the items of a list, one by one. -/
def array (item : Spelling α) : Spelling (List α) := fun v xs =>
  ∃ items, v = .array items ∧ List.Forall₂ item items xs

end Spelling

/-- An object with members of some shape. -/
def Json.ObjectOf (inside : Members → Prop) (v : Json) : Prop := ∃ ms, v = .object ms ∧ inside ms

/-- An array of items of some kind. -/
def Json.ArrayOf (item : Json → Prop) (v : Json) : Prop :=
  ∃ items, v = .array items ∧ ∀ w ∈ items, item w

/-! ## Members -/

namespace Members

variable {α : Type}

/-- A member is missing or null. -/
def Absent (ms : Members) (key : String) : Prop :=
  ms.lookup key = none ∨ ms.lookup key = some .null

/-- A member has a value of some kind. -/
def Requires (ms : Members) (key : String) (kind : Json → Prop) : Prop :=
  ∃ v, ms.lookup key = some v ∧ kind v

/-- A member has a value of some kind, or is missing or null. -/
def Allows (ms : Members) (key : String) (kind : Json → Prop) : Prop :=
  ms.Absent key ∨ ms.Requires key kind

/-- A member spells a value. -/
def Spells (ms : Members) (key : String) (spelling : Spelling α) (x : α) : Prop :=
  ms.Requires key fun v => spelling v x

/-- A member spells a value; a missing or null one spells the default. -/
def SpellsOr (ms : Members) (key : String) (default : α) (spelling : Spelling α) (x : α) : Prop :=
  (ms.Absent key ∧ x = default) ∨ ms.Spells key spelling x

end Members

/-! ## The shape of documents -/

/-- The members of a retry policy. -/
structure RetryPolicy.Shape (retry : Members) : Prop where
  enabled : retry.Allows "enabled" Spelling.flag.Accepts
  maximumAttempts : retry.Allows "maximumAttempts" Spelling.attempts.Accepts
  initialInterval : retry.Allows "initialInterval" Spelling.natural.Accepts
  maximumInterval : retry.Allows "maximumInterval" Spelling.natural.Accepts
  backoffCoefficient : retry.Allows "backoffCoefficient" Spelling.coefficient.Accepts

/-- The members of execution options. -/
structure ActivityOptions.Shape (options : Members) : Prop where
  startToCloseTimeout : options.Allows "startToCloseTimeout" Spelling.positive.Accepts
  scheduleToCloseTimeout : options.Allows "scheduleToCloseTimeout" Spelling.natural.Accepts
  heartbeatTimeout : options.Allows "heartbeatTimeout" Spelling.natural.Accepts
  continueOnFail : options.Allows "continueOnFail" Spelling.flag.Accepts
  retry : options.Allows "retry" (Json.ObjectOf RetryPolicy.Shape)

/-- The members of a node. -/
structure Node.Shape (node : Members) : Prop where
  id : node.Requires "id" Spelling.visible.Accepts
  typeTag : node.Requires "type" Spelling.visible.Accepts
  name : node.Allows "name" Spelling.text.Accepts
  parameters : node.Allows "parameters" Spelling.members.Accepts
  disabled : node.Allows "disabled" Spelling.flag.Accepts
  options : node.Allows "options" (Json.ObjectOf ActivityOptions.Shape)

/-- The members of a connection. -/
structure Connection.Shape (connection : Members) : Prop where
  source : connection.Requires "source" Spelling.visible.Accepts
  target : connection.Requires "target" Spelling.visible.Accepts
  sourceOutput : connection.Allows "sourceOutput" Spelling.label.Accepts
  targetInput : connection.Allows "targetInput" Spelling.label.Accepts

/-- The members of a document. -/
structure Definition.Shape (root : Members) : Prop where
  name : root.Allows "name" Spelling.text.Accepts
  description : root.Allows "description" Spelling.text.Accepts
  nodes : root.Requires "nodes" (Json.ArrayOf (Json.ObjectOf Node.Shape))
  connections : root.Allows "connections" (Json.ArrayOf (Json.ObjectOf Connection.Shape))

/-- A document of the grammar. -/
def Document.WellShaped : Json → Prop := Json.ObjectOf Definition.Shape

/-! ## The definition that a document spells -/

/-- The members of a retry policy spell its fields. -/
structure RetryPolicy.SpelledBy (retry : Members) (p : RetryPolicy) : Prop where
  enabled : retry.SpellsOr "enabled" true Spelling.flag p.enabled
  maximumAttempts : retry.SpellsOr "maximumAttempts" 3 Spelling.attempts p.maximumAttempts
  initialInterval : retry.SpellsOr "initialInterval" 1 Spelling.natural p.initialInterval
  maximumInterval : retry.SpellsOr "maximumInterval" 0 Spelling.natural p.maximumInterval
  backoffCoefficient :
    retry.SpellsOr "backoffCoefficient" .two Spelling.coefficient p.backoffCoefficient

/-- The members of execution options spell their fields. -/
structure ActivityOptions.SpelledBy (options : Members) (o : ActivityOptions) : Prop where
  startToCloseTimeout :
    options.SpellsOr "startToCloseTimeout" 300 Spelling.positive o.startToCloseTimeout
  scheduleToCloseTimeout :
    options.SpellsOr "scheduleToCloseTimeout" 0 Spelling.natural o.scheduleToCloseTimeout
  heartbeatTimeout : options.SpellsOr "heartbeatTimeout" 0 Spelling.natural o.heartbeatTimeout
  continueOnFail : options.SpellsOr "continueOnFail" false Spelling.flag o.continueOnFail
  retry : options.SpellsOr "retry" {} (Spelling.object RetryPolicy.SpelledBy) o.retry

/-- The members of a node spell its fields. -/
structure Node.SpelledBy (node : Members) (n : Node) : Prop where
  id : node.Spells "id" Spelling.visible n.id
  typeTag : node.Spells "type" Spelling.visible n.typeTag
  name : node.SpellsOr "name" "" Spelling.text n.name
  parameters : node.SpellsOr "parameters" [] Spelling.members n.parameters
  disabled : node.SpellsOr "disabled" false Spelling.flag n.disabled
  options : node.SpellsOr "options" {} (Spelling.object ActivityOptions.SpelledBy) n.options

/-- The members of a connection spell its fields. -/
structure Connection.SpelledBy (connection : Members) (c : Connection) : Prop where
  source : connection.Spells "source" Spelling.visible c.source
  target : connection.Spells "target" Spelling.visible c.target
  sourceOutput : connection.SpellsOr "sourceOutput" "main" Spelling.label c.sourceOutput
  targetInput : connection.SpellsOr "targetInput" "main" Spelling.label c.targetInput

/-- The members of a document spell the fields of a definition. -/
structure Definition.Fields (root : Members) (d : Definition) : Prop where
  name : root.SpellsOr "name" "" Spelling.text d.name
  description : root.SpellsOr "description" "" Spelling.text d.description
  nodes : root.Spells "nodes" (Spelling.array (Spelling.object Node.SpelledBy)) d.nodes
  connections :
    root.SpellsOr "connections" [] (Spelling.array (Spelling.object Connection.SpelledBy))
      d.connections

/-- A document spells a definition. -/
def Definition.SpelledBy : Spelling Definition := Spelling.object Definition.Fields

/-! ## Every document of the grammar spells a definition -/

section

variable {α : Type} {ms : Members} {key : String} {kind : Json → Prop} {spelling : Spelling α}

theorem Members.requires_iff (h : ∀ v, kind v ↔ spelling.Accepts v) :
    ms.Requires key kind ↔ ∃ x, ms.Spells key spelling x := by
  constructor
  · rintro ⟨v, hv, hkind⟩
    obtain ⟨x, hx⟩ := (h v).mp hkind
    exact ⟨x, v, hv, hx⟩
  · rintro ⟨x, v, hv, hx⟩
    exact ⟨v, hv, (h v).mpr ⟨x, hx⟩⟩

theorem Members.allows_iff (default : α) (h : ∀ v, kind v ↔ spelling.Accepts v) :
    ms.Allows key kind ↔ ∃ x, ms.SpellsOr key default spelling x := by
  constructor
  · rintro (habsent | hkind)
    · exact ⟨default, .inl ⟨habsent, rfl⟩⟩
    · obtain ⟨x, hx⟩ := (requires_iff h).mp hkind
      exact ⟨x, .inr hx⟩
  · rintro ⟨x, ⟨habsent, -⟩ | hx⟩
    · exact .inl habsent
    · exact .inr ((requires_iff h).mpr ⟨x, hx⟩)

theorem Members.requires_accepts :
    ms.Requires key spelling.Accepts ↔ ∃ x, ms.Spells key spelling x :=
  requires_iff fun _ => Iff.rfl

theorem Members.allows_accepts (default : α) :
    ms.Allows key spelling.Accepts ↔ ∃ x, ms.SpellsOr key default spelling x :=
  allows_iff default fun _ => Iff.rfl

theorem Json.objectOf_iff {shape : Members → Prop} {inside : Members → α → Prop}
    (h : ∀ ms, shape ms ↔ ∃ x, inside ms x) (v : Json) :
    ObjectOf shape v ↔ (Spelling.object inside).Accepts v := by
  constructor
  · rintro ⟨ms, rfl, hshape⟩
    obtain ⟨x, hx⟩ := (h ms).mp hshape
    exact ⟨x, ms, rfl, hx⟩
  · rintro ⟨x, ms, rfl, hx⟩
    exact ⟨ms, rfl, (h ms).mpr ⟨x, hx⟩⟩

theorem Json.arrayOf_iff (h : ∀ v, kind v ↔ spelling.Accepts v) (v : Json) :
    ArrayOf kind v ↔ (Spelling.array spelling).Accepts v := by
  have hitems : ∀ items : List Json, (∀ w ∈ items, kind w) ↔
      ∃ xs, List.Forall₂ spelling items xs := by
    intro items
    induction items with
    | nil => simp
    | cons w items ih =>
        rw [List.forall_mem_cons, ih, h w]
        constructor
        · rintro ⟨⟨x, hx⟩, xs, hxs⟩
          exact ⟨x :: xs, .cons hx hxs⟩
        · rintro ⟨xs, hall⟩
          cases hall with
          | cons hx hxs => exact ⟨⟨_, hx⟩, _, hxs⟩
  constructor
  · rintro ⟨items, rfl, hkind⟩
    obtain ⟨xs, hxs⟩ := (hitems items).mp hkind
    exact ⟨xs, items, rfl, hxs⟩
  · rintro ⟨xs, items, rfl, hxs⟩
    exact ⟨items, rfl, (hitems items).mpr ⟨xs, hxs⟩⟩

end

theorem RetryPolicy.shape_iff (retry : Members) : Shape retry ↔ ∃ p, SpelledBy retry p := by
  constructor
  · intro h
    obtain ⟨enabled, henabled⟩ := (Members.allows_accepts true).mp h.enabled
    obtain ⟨attempts, hattempts⟩ := (Members.allows_accepts 3).mp h.maximumAttempts
    obtain ⟨initial, hinitial⟩ := (Members.allows_accepts 1).mp h.initialInterval
    obtain ⟨maximum, hmaximum⟩ := (Members.allows_accepts 0).mp h.maximumInterval
    obtain ⟨coefficient, hcoefficient⟩ := (Members.allows_accepts .two).mp h.backoffCoefficient
    exact ⟨⟨enabled, attempts, initial, coefficient, maximum⟩,
      henabled, hattempts, hinitial, hmaximum, hcoefficient⟩
  · rintro ⟨p, h⟩
    exact ⟨(Members.allows_accepts _).mpr ⟨_, h.enabled⟩,
      (Members.allows_accepts _).mpr ⟨_, h.maximumAttempts⟩,
      (Members.allows_accepts _).mpr ⟨_, h.initialInterval⟩,
      (Members.allows_accepts _).mpr ⟨_, h.maximumInterval⟩,
      (Members.allows_accepts _).mpr ⟨_, h.backoffCoefficient⟩⟩

theorem ActivityOptions.shape_iff (options : Members) :
    Shape options ↔ ∃ o, SpelledBy options o := by
  have hretryOf := Json.objectOf_iff RetryPolicy.shape_iff
  constructor
  · intro h
    obtain ⟨start, hstart⟩ := (Members.allows_accepts 300).mp h.startToCloseTimeout
    obtain ⟨schedule, hschedule⟩ := (Members.allows_accepts 0).mp h.scheduleToCloseTimeout
    obtain ⟨heartbeat, hheartbeat⟩ := (Members.allows_accepts 0).mp h.heartbeatTimeout
    obtain ⟨continues, hcontinues⟩ := (Members.allows_accepts false).mp h.continueOnFail
    obtain ⟨retry, hretry⟩ := (Members.allows_iff {} hretryOf).mp h.retry
    exact ⟨⟨start, schedule, heartbeat, retry, continues⟩,
      hstart, hschedule, hheartbeat, hcontinues, hretry⟩
  · rintro ⟨o, h⟩
    exact ⟨(Members.allows_accepts _).mpr ⟨_, h.startToCloseTimeout⟩,
      (Members.allows_accepts _).mpr ⟨_, h.scheduleToCloseTimeout⟩,
      (Members.allows_accepts _).mpr ⟨_, h.heartbeatTimeout⟩,
      (Members.allows_accepts _).mpr ⟨_, h.continueOnFail⟩,
      (Members.allows_iff _ hretryOf).mpr ⟨_, h.retry⟩⟩

theorem Node.shape_iff (node : Members) : Shape node ↔ ∃ n, SpelledBy node n := by
  have hoptionsOf := Json.objectOf_iff ActivityOptions.shape_iff
  constructor
  · intro h
    obtain ⟨id, hid⟩ := Members.requires_accepts.mp h.id
    obtain ⟨typeTag, htype⟩ := Members.requires_accepts.mp h.typeTag
    obtain ⟨name, hname⟩ := (Members.allows_accepts "").mp h.name
    obtain ⟨parameters, hparameters⟩ := (Members.allows_accepts []).mp h.parameters
    obtain ⟨disabled, hdisabled⟩ := (Members.allows_accepts false).mp h.disabled
    obtain ⟨options, hoptions⟩ := (Members.allows_iff {} hoptionsOf).mp h.options
    exact ⟨⟨id, typeTag, name, parameters, options, disabled⟩,
      hid, htype, hname, hparameters, hdisabled, hoptions⟩
  · rintro ⟨n, h⟩
    exact ⟨Members.requires_accepts.mpr ⟨_, h.id⟩,
      Members.requires_accepts.mpr ⟨_, h.typeTag⟩,
      (Members.allows_accepts _).mpr ⟨_, h.name⟩,
      (Members.allows_accepts _).mpr ⟨_, h.parameters⟩,
      (Members.allows_accepts _).mpr ⟨_, h.disabled⟩,
      (Members.allows_iff _ hoptionsOf).mpr ⟨_, h.options⟩⟩

theorem Connection.shape_iff (connection : Members) :
    Shape connection ↔ ∃ c, SpelledBy connection c := by
  constructor
  · intro h
    obtain ⟨source, hsource⟩ := Members.requires_accepts.mp h.source
    obtain ⟨target, htarget⟩ := Members.requires_accepts.mp h.target
    obtain ⟨sourceOutput, houtput⟩ := (Members.allows_accepts "main").mp h.sourceOutput
    obtain ⟨targetInput, hinput⟩ := (Members.allows_accepts "main").mp h.targetInput
    exact ⟨⟨source, sourceOutput, target, targetInput⟩, hsource, htarget, houtput, hinput⟩
  · rintro ⟨c, h⟩
    exact ⟨Members.requires_accepts.mpr ⟨_, h.source⟩,
      Members.requires_accepts.mpr ⟨_, h.target⟩,
      (Members.allows_accepts _).mpr ⟨_, h.sourceOutput⟩,
      (Members.allows_accepts _).mpr ⟨_, h.targetInput⟩⟩

theorem Definition.shape_iff (root : Members) : Shape root ↔ ∃ d, Fields root d := by
  have hnodesOf := Json.arrayOf_iff (Json.objectOf_iff Node.shape_iff)
  have hconnectionsOf := Json.arrayOf_iff (Json.objectOf_iff Connection.shape_iff)
  constructor
  · intro h
    obtain ⟨name, hname⟩ := (Members.allows_accepts "").mp h.name
    obtain ⟨description, hdescription⟩ := (Members.allows_accepts "").mp h.description
    obtain ⟨nodes, hnodes⟩ := (Members.requires_iff hnodesOf).mp h.nodes
    obtain ⟨connections, hconnections⟩ := (Members.allows_iff [] hconnectionsOf).mp h.connections
    exact ⟨⟨name, description, nodes, connections⟩, hname, hdescription, hnodes, hconnections⟩
  · rintro ⟨d, h⟩
    exact ⟨(Members.allows_accepts _).mpr ⟨_, h.name⟩,
      (Members.allows_accepts _).mpr ⟨_, h.description⟩,
      (Members.requires_iff hnodesOf).mpr ⟨_, h.nodes⟩,
      (Members.allows_iff _ hconnectionsOf).mpr ⟨_, h.connections⟩⟩

/-- The documents that spell a definition are those of the grammar. -/
theorem Document.wellShaped_iff (v : Json) : WellShaped v ↔ ∃ d, Definition.SpelledBy v d :=
  Json.objectOf_iff Definition.shape_iff v

end FlowGraph
