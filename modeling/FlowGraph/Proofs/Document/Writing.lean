import FlowGraph.Proofs.Document.Reading

/-!
# Writing definitions

A written definition names every member, the empty description of a workflow
excepted, and writes it in one form: an integer as an integer, a coefficient as
a real.  This module shows that writing loses nothing, neither for the plain
reader nor for the one that checks a document first.

Main results:

- Theorems `RetryPolicy.written_toJson`, `ActivityOptions.written_toJson` and so
  on: the members that a written record has.
- Theorem `Definition.read_toJson`: a written definition is read back.
- Theorem `Definition.spelledBy_toJson`: a definition that some document spells
  is spelled by its written form.
- Theorem `write_read_cycle`: definitions survive writing and reading, with and
  without the checks of a document.
-/

namespace FlowGraph

open Decimal (Binary64)

/-! ## The members of written records -/

/-- The members of a written retry policy. -/
structure RetryPolicy.Written (ms : Members) (p : RetryPolicy) : Prop where
  enabled : ms.lookup "enabled" = some (.bool p.enabled)
  maximumAttempts : ms.lookup "maximumAttempts" = some (.ofUInt64 p.maximumAttempts.toUInt64)
  initialInterval : ms.lookup "initialInterval" = some (.ofUInt64 p.initialInterval)
  maximumInterval : ms.lookup "maximumInterval" = some (.ofUInt64 p.maximumInterval)
  backoffCoefficient :
    ms.lookup "backoffCoefficient" = some (.number (.real p.backoffCoefficient))

/-- The members of written execution options. -/
structure ActivityOptions.Written (ms : Members) (o : ActivityOptions) : Prop where
  startToCloseTimeout : ms.lookup "startToCloseTimeout" = some (.ofUInt64 o.startToCloseTimeout)
  scheduleToCloseTimeout :
    ms.lookup "scheduleToCloseTimeout" = some (.ofUInt64 o.scheduleToCloseTimeout)
  heartbeatTimeout : ms.lookup "heartbeatTimeout" = some (.ofUInt64 o.heartbeatTimeout)
  continueOnFail : ms.lookup "continueOnFail" = some (.bool o.continueOnFail)
  retry : ms.lookup "retry" = some o.retry.toJson

/-- The members of a written node. -/
structure Node.Written (ms : Members) (n : Node) : Prop where
  id : ms.lookup "id" = some (.string n.id)
  typeTag : ms.lookup "type" = some (.string n.typeTag)
  name : ms.lookup "name" = some (.string n.name)
  parameters : ms.lookup "parameters" = some (.object n.parameters)
  disabled : ms.lookup "disabled" = some (.bool n.disabled)
  options : ms.lookup "options" = some n.options.toJson

/-- The members of a written connection. -/
structure Connection.Written (ms : Members) (c : Connection) : Prop where
  source : ms.lookup "source" = some (.string c.source)
  target : ms.lookup "target" = some (.string c.target)
  sourceOutput : ms.lookup "sourceOutput" = some (.string c.sourceOutput)
  targetInput : ms.lookup "targetInput" = some (.string c.targetInput)

/-- The members of a written definition; an empty description is left out. -/
structure Definition.Written (ms : Members) (d : Definition) : Prop where
  name : ms.lookup "name" = some (.string d.name)
  description : ms.lookup "description" =
    if d.description.isEmpty then none else some (.string d.description)
  nodes : ms.lookup "nodes" = some (.array (d.nodes.map Node.toJson))
  connections : ms.lookup "connections" = some (.array (d.connections.map Connection.toJson))

theorem RetryPolicy.written_toJson (p : RetryPolicy) :
    ∃ ms, p.toJson = .object ms ∧ Written ms p :=
  ⟨_, rfl, by constructor <;> exact Members.lookup_ofList (by simp) _⟩

theorem ActivityOptions.written_toJson (o : ActivityOptions) :
    ∃ ms, o.toJson = .object ms ∧ Written ms o :=
  ⟨_, rfl, by constructor <;> exact Members.lookup_ofList (by simp) _⟩

theorem Node.written_toJson (n : Node) : ∃ ms, n.toJson = .object ms ∧ Written ms n :=
  ⟨_, rfl, by constructor <;> exact Members.lookup_ofList (by simp) _⟩

theorem Connection.written_toJson (c : Connection) :
    ∃ ms, c.toJson = .object ms ∧ Written ms c :=
  ⟨_, rfl, by constructor <;> exact Members.lookup_ofList (by simp) _⟩

theorem Definition.written_toJson (d : Definition) :
    ∃ ms, d.toJson = .object ms ∧ Written ms d := by
  refine ⟨_, rfl, ?_⟩
  by_cases hempty : d.description.isEmpty = true
  · rw [if_pos hempty]
    refine ⟨Members.lookup_ofList (by simp) _, ?_, Members.lookup_ofList (by simp) _,
      Members.lookup_ofList (by simp) _⟩
    rw [if_pos hempty]
    exact Members.lookup_ofList (by simp) _
  · rw [if_neg hempty]
    refine ⟨Members.lookup_ofList (by simp) _, ?_, Members.lookup_ofList (by simp) _,
      Members.lookup_ofList (by simp) _⟩
    rw [if_neg hempty]
    exact Members.lookup_ofList (by simp) _

/-! ## Written records are read back -/

namespace Members

variable {α : Type} {ms : Members} {key : String} {v : Json} {read : ReadAs α} {x : α}

theorem required_of_lookup (hv : ms.lookup key = some v) (hread : read v = .ok x) :
    ms.required key read = .ok x := by
  rw [required, hv]
  exact hread

theorem defaulted_of_lookup {default : α} (hv : ms.lookup key = some v)
    (hread : read v = .ok x) : ms.defaulted key default read = .ok x := by
  rw [defaulted, hv]
  exact hread

end Members

/-- A list is read back when its items are. -/
theorem ReadAs.list_map {α : Type} {read : ReadAs α} {write : α → Json}
    (h : ∀ x, read (write x) = .ok x) (xs : List α) :
    ReadAs.list read (.array (xs.map write)) = .ok xs := by
  apply mapM_eq_ok_iff.mpr
  rw [List.forall₂_map_left_iff, List.forall₂_same]
  intro x _
  exact h x

theorem RetryPolicy.read_toJson (p : RetryPolicy) : RetryPolicy.read p.toJson = .ok p := by
  obtain ⟨ms, hms, h⟩ := p.written_toJson
  rw [hms, Document.retryPolicy_read_iff]
  exact ⟨Members.defaulted_of_lookup h.enabled rfl,
    Members.defaulted_of_lookup h.maximumAttempts (Document.read_uint32_iff.mpr rfl),
    Members.defaulted_of_lookup h.initialInterval (Document.read_uint64_iff.mpr rfl),
    Members.defaulted_of_lookup h.backoffCoefficient rfl,
    Members.defaulted_of_lookup h.maximumInterval (Document.read_uint64_iff.mpr rfl)⟩

theorem ActivityOptions.read_toJson (o : ActivityOptions) :
    ActivityOptions.read o.toJson = .ok o := by
  obtain ⟨ms, hms, h⟩ := o.written_toJson
  rw [hms, Document.activityOptions_read_iff]
  exact ⟨Members.defaulted_of_lookup h.startToCloseTimeout (Document.read_uint64_iff.mpr rfl),
    Members.defaulted_of_lookup h.scheduleToCloseTimeout (Document.read_uint64_iff.mpr rfl),
    Members.defaulted_of_lookup h.heartbeatTimeout (Document.read_uint64_iff.mpr rfl),
    Members.defaulted_of_lookup h.retry o.retry.read_toJson,
    Members.defaulted_of_lookup h.continueOnFail rfl⟩

theorem Node.read_toJson (n : Node) : Node.read n.toJson = .ok n := by
  obtain ⟨ms, hms, h⟩ := n.written_toJson
  rw [hms, Document.node_read_iff]
  exact ⟨Members.required_of_lookup h.id rfl, Members.required_of_lookup h.typeTag rfl,
    Members.defaulted_of_lookup h.name rfl, Members.defaulted_of_lookup h.parameters rfl,
    Members.defaulted_of_lookup h.options n.options.read_toJson,
    Members.defaulted_of_lookup h.disabled rfl⟩

theorem Connection.read_toJson (c : Connection) : Connection.read c.toJson = .ok c := by
  obtain ⟨ms, hms, h⟩ := c.written_toJson
  rw [hms, Document.connection_read_iff]
  exact ⟨Members.required_of_lookup h.source rfl, Members.defaulted_of_lookup h.sourceOutput rfl,
    Members.required_of_lookup h.target rfl, Members.defaulted_of_lookup h.targetInput rfl⟩

/-- A written definition is read back. -/
theorem Definition.read_toJson (d : Definition) : Definition.read d.toJson = .ok d := by
  obtain ⟨ms, hms, h⟩ := d.written_toJson
  rw [hms, Document.definition_read_iff]
  refine ⟨Members.defaulted_of_lookup h.name rfl, ?_,
    Members.required_of_lookup h.nodes (ReadAs.list_map Node.read_toJson d.nodes),
    Members.defaulted_of_lookup h.connections
      (ReadAs.list_map Connection.read_toJson d.connections)⟩
  rw [Members.defaulted, h.description]
  by_cases hempty : d.description.isEmpty = true
  · simp only [hempty, if_true]
    rw [String.isEmpty_iff.mp hempty]
  · simp only [hempty]
    rfl

/-! ## Written documents spell what they were written from -/

namespace Spelling

variable {α : Type}

/-- What some value spells is spelled by its written form. -/
def WrittenBy (spelling : Spelling α) (write : α → Json) : Prop :=
  ∀ v x, spelling v x → spelling (write x) x

theorem writtenBy_text : text.WrittenBy .string := fun _ _ _ => rfl

theorem writtenBy_visible : visible.WrittenBy .string := fun _ _ h => ⟨rfl, h.2⟩

theorem writtenBy_label : label.WrittenBy .string := fun _ _ h => ⟨rfl, h.2⟩

theorem writtenBy_flag : flag.WrittenBy .bool := fun _ _ _ => rfl

theorem writtenBy_natural : natural.WrittenBy .ofUInt64 := fun _ _ _ => rfl

theorem writtenBy_positive : positive.WrittenBy .ofUInt64 := fun _ _ h => ⟨rfl, h.2⟩

theorem writtenBy_attempts : attempts.WrittenBy fun n => .ofUInt64 n.toUInt64 :=
  fun _ _ h => ⟨rfl, h.2⟩

/-- A coefficient is written as a real, also one that was an integer. -/
theorem writtenBy_coefficient : coefficient.WrittenBy fun x => .number (.real x) := by
  rintro _ _ ⟨n, -, hone, rfl⟩
  exact ⟨.real n.toReal, rfl, (Document.atLeastOne_iff n).mp hone, rfl⟩

theorem writtenBy_members : members.WrittenBy .object := fun _ _ _ => rfl

theorem writtenBy_object {inside : Members → α → Prop} {write : α → Json}
    (h : ∀ ms x, inside ms x → ∃ ms', write x = .object ms' ∧ inside ms' x) :
    (object inside).WrittenBy write := by
  rintro _ x ⟨ms, -, hx⟩
  exact h ms x hx

theorem writtenBy_array {item : Spelling α} {write : α → Json} (h : item.WrittenBy write) :
    (array item).WrittenBy fun xs => .array (xs.map write) := by
  rintro _ xs ⟨items, -, hall⟩
  refine ⟨_, rfl, ?_⟩
  induction hall with
  | nil => exact .nil
  | cons hx _ ih => exact .cons (h _ _ hx) ih

end Spelling

namespace Members

variable {α : Type} {source target : Members} {key : String} {spelling : Spelling α}
  {write : α → Json} {x : α}

/-- A written member spells what the required member of some document spells. -/
theorem Spells.written (h : source.Spells key spelling x) (hwrite : spelling.WrittenBy write)
    (hlookup : target.lookup key = some (write x)) : target.Spells key spelling x := by
  obtain ⟨v, -, hv⟩ := h
  exact ⟨_, hlookup, hwrite v x hv⟩

/-- A written member spells what the member of some document spells; a default is spelled out. -/
theorem SpellsOr.written {default : α} (h : source.SpellsOr key default spelling x)
    (hwrite : spelling.WrittenBy write) (hdefault : spelling (write default) default)
    (hlookup : target.lookup key = some (write x)) : target.SpellsOr key default spelling x := by
  rcases h with ⟨-, rfl⟩ | hspells
  · exact .inr ⟨_, hlookup, hdefault⟩
  · exact .inr (hspells.written hwrite hlookup)

end Members

/-- The members of a written policy spell a policy that some members spell. -/
theorem RetryPolicy.SpelledBy.written {source : Members} {p : RetryPolicy}
    (h : SpelledBy source p) : ∃ ms, p.toJson = .object ms ∧ SpelledBy ms p := by
  obtain ⟨ms, hms, w⟩ := p.written_toJson
  exact ⟨ms, hms,
    h.enabled.written Spelling.writtenBy_flag rfl w.enabled,
    h.maximumAttempts.written Spelling.writtenBy_attempts ⟨rfl, by decide⟩ w.maximumAttempts,
    h.initialInterval.written Spelling.writtenBy_natural rfl w.initialInterval,
    h.maximumInterval.written Spelling.writtenBy_natural rfl w.maximumInterval,
    h.backoffCoefficient.written Spelling.writtenBy_coefficient
      (Spelling.writtenBy_coefficient _ _ ⟨.ofUInt64 2, rfl, by decide, rfl⟩)
      w.backoffCoefficient⟩

/-- An empty object spells the policy of all defaults. -/
theorem RetryPolicy.spelledBy_nil : SpelledBy [] {} := by
  constructor <;> exact .inl ⟨.inl rfl, rfl⟩

theorem ActivityOptions.SpelledBy.written {source : Members} {o : ActivityOptions}
    (h : SpelledBy source o) : ∃ ms, o.toJson = .object ms ∧ SpelledBy ms o := by
  obtain ⟨ms, hms, w⟩ := o.written_toJson
  exact ⟨ms, hms,
    h.startToCloseTimeout.written Spelling.writtenBy_positive ⟨rfl, by decide⟩
      w.startToCloseTimeout,
    h.scheduleToCloseTimeout.written Spelling.writtenBy_natural rfl w.scheduleToCloseTimeout,
    h.heartbeatTimeout.written Spelling.writtenBy_natural rfl w.heartbeatTimeout,
    h.continueOnFail.written Spelling.writtenBy_flag rfl w.continueOnFail,
    h.retry.written (Spelling.writtenBy_object fun _ _ => RetryPolicy.SpelledBy.written)
      RetryPolicy.spelledBy_nil.written w.retry⟩

/-- An empty object spells the options of all defaults. -/
theorem ActivityOptions.spelledBy_nil : SpelledBy [] {} := by
  constructor <;> exact .inl ⟨.inl rfl, rfl⟩

theorem Node.SpelledBy.written {source : Members} {n : Node} (h : SpelledBy source n) :
    ∃ ms, n.toJson = .object ms ∧ SpelledBy ms n := by
  obtain ⟨ms, hms, w⟩ := n.written_toJson
  exact ⟨ms, hms,
    h.id.written Spelling.writtenBy_visible w.id,
    h.typeTag.written Spelling.writtenBy_visible w.typeTag,
    h.name.written Spelling.writtenBy_text rfl w.name,
    h.parameters.written Spelling.writtenBy_members rfl w.parameters,
    h.disabled.written Spelling.writtenBy_flag rfl w.disabled,
    h.options.written (Spelling.writtenBy_object fun _ _ => ActivityOptions.SpelledBy.written)
      ActivityOptions.spelledBy_nil.written w.options⟩

theorem Connection.SpelledBy.written {source : Members} {c : Connection}
    (h : SpelledBy source c) : ∃ ms, c.toJson = .object ms ∧ SpelledBy ms c := by
  obtain ⟨ms, hms, w⟩ := c.written_toJson
  exact ⟨ms, hms,
    h.source.written Spelling.writtenBy_visible w.source,
    h.target.written Spelling.writtenBy_visible w.target,
    h.sourceOutput.written Spelling.writtenBy_label ⟨rfl, by decide⟩ w.sourceOutput,
    h.targetInput.written Spelling.writtenBy_label ⟨rfl, by decide⟩ w.targetInput⟩

/-- The written form of a definition that some document spells spells it, too. -/
theorem Definition.spelledBy_toJson {v : Json} {d : Definition} (h : SpelledBy v d) :
    SpelledBy d.toJson d := by
  obtain ⟨source, -, h⟩ := h
  obtain ⟨ms, hms, w⟩ := d.written_toJson
  refine ⟨ms, hms, h.name.written Spelling.writtenBy_text rfl w.name, ?_,
    h.nodes.written (Spelling.writtenBy_array (Spelling.writtenBy_object fun _ _ =>
      Node.SpelledBy.written)) w.nodes,
    h.connections.written (Spelling.writtenBy_array (Spelling.writtenBy_object fun _ _ =>
      Connection.SpelledBy.written)) ⟨[], rfl, .nil⟩ w.connections⟩
  -- An empty description is left out: it is what a missing one stands for.
  have hdescription := w.description
  by_cases hempty : d.description.isEmpty = true
  · rw [if_pos hempty] at hdescription
    exact .inl ⟨.inl hdescription, String.isEmpty_iff.mp hempty⟩
  · rw [if_neg hempty] at hdescription
    exact .inr ⟨_, hdescription, rfl⟩

/-! ## Written documents are ordered -/

theorem RetryPolicy.ordered_toJson (p : RetryPolicy) : p.toJson.Ordered :=
  Json.ordered_ofPairs (by simp [Json.Ordered, Json.ofUInt64])

theorem ActivityOptions.ordered_toJson (o : ActivityOptions) : o.toJson.Ordered :=
  Json.ordered_ofPairs (by simp [Json.Ordered, Json.ofUInt64, o.retry.ordered_toJson])

theorem Node.ordered_toJson {n : Node} (h : (Json.object n.parameters).Ordered) :
    n.toJson.Ordered :=
  Json.ordered_ofPairs (by
    simp only [List.forall_mem_cons, h, n.options.ordered_toJson]
    simp [Json.Ordered])

theorem Connection.ordered_toJson (c : Connection) : c.toJson.Ordered :=
  Json.ordered_ofPairs (by simp [Json.Ordered])

theorem Definition.ordered_toJson {d : Definition}
    (h : ∀ n ∈ d.nodes, (Json.object n.parameters).Ordered) : d.toJson.Ordered := by
  have hnodes : Json.OrderedItems (d.nodes.map Node.toJson) :=
    Json.orderedItems_iff.mpr (List.forall_mem_map.mpr fun n hn => Node.ordered_toJson (h n hn))
  have hconnections : Json.OrderedItems (d.connections.map Connection.toJson) :=
    Json.orderedItems_iff.mpr (List.forall_mem_map.mpr fun c _ => c.ordered_toJson)
  refine Json.ordered_ofPairs ?_
  split <;> simp [Json.Ordered, hnodes, hconnections]

/-- What holds of every item's meaning holds of every item of the list that an array spells. -/
theorem Spelling.forall_of_items {α : Type} {item : Spelling α} {P : α → Prop}
    {items : List Json} {xs : List α} (hall : List.Forall₂ item items xs)
    (h : ∀ v ∈ items, ∀ x, item v x → P x) : ∀ x ∈ xs, P x := by
  induction hall with
  | nil => exact List.forall_mem_nil P
  | cons hx _ ih =>
      obtain ⟨hhead, htail⟩ := List.forall_mem_cons.mp h
      exact List.forall_mem_cons.mpr ⟨hhead _ hx, ih htail⟩

/-- The parameters that an ordered node spells are ordered. -/
theorem Node.SpelledBy.ordered_parameters {ms : Members} {n : Node}
    (hordered : (Json.object ms).Ordered) (h : SpelledBy ms n) :
    (Json.object n.parameters).Ordered := by
  rcases h.parameters with ⟨-, hnone⟩ | ⟨v, hv, rfl⟩
  · rw [hnone]
    decide
  · exact Members.ordered_of_lookup hordered hv

/-- The parameters of every node that an ordered document spells are ordered. -/
theorem Definition.SpelledBy.ordered_parameters {v : Json} {d : Definition} (hordered : v.Ordered)
    (h : SpelledBy v d) : ∀ n ∈ d.nodes, (Json.object n.parameters).Ordered := by
  obtain ⟨root, rfl, h⟩ := h
  obtain ⟨_, hnodes, items, rfl, hall⟩ := h.nodes
  have hitems := Json.ordered_array.mp (Members.ordered_of_lookup hordered hnodes)
  refine Spelling.forall_of_items hall ?_
  rintro v hv n ⟨ms, rfl, hspelled⟩
  exact hspelled.ordered_parameters (hitems _ hv)

/-! ## The cycle -/

/-- A written definition is read back, so writing it again gives the same document.  What is read
of a checked document is written as a document that passes the checks and is read as the same
definition.  A document that comes from a text is ordered, by `Json.ordered_of_parse`. -/
theorem write_read_cycle :
    (∀ d : Definition, Definition.read d.toJson = .ok d ∧
      Definition.toJson <$> Definition.read d.toJson = .ok d.toJson) ∧
    ∀ (v : Json) (d : Definition), v.Ordered → Document.read v = .ok d →
      d.toJson.Ordered ∧ Document.read d.toJson = .ok d := by
  constructor
  · intro d
    have hread := d.read_toJson
    exact ⟨hread, by rw [hread]; rfl⟩
  · intro v d hv hread
    have hspelled := (Document.read_eq_ok_iff hv d).mp hread
    have hordered := Definition.ordered_toJson (hspelled.ordered_parameters hv)
    exact ⟨hordered, (Document.read_eq_ok_iff hordered d).mpr (Definition.spelledBy_toJson hspelled)⟩

/-- A document that leaves out or nulls whatever it may, with an integer as its coefficient. -/
def briefDocument : Json :=
  .object [
    ("connections", .array [.object [("source", .string "a"), ("target", .string "a")]]),
    ("description", .null),
    ("nodes", .array [.object [
      ("id", .string "a"),
      ("options", .object [("retry", .object [("backoffCoefficient", .ofUInt64 1)])]),
      ("type", .string "t")]])]

/-- What the document spells. -/
def briefDefinition : Definition where
  nodes := [{
    id := "a"
    typeTag := "t"
    options := { retry := { backoffCoefficient := (Number.ofUInt64 1).toReal } } }]
  connections := [{ source := "a", target := "a" }]

theorem write_read_cycle_briefDocument :
    briefDocument.Ordered ∧ Document.read briefDocument = .ok briefDefinition ∧
      Document.read briefDefinition.toJson = .ok briefDefinition := by
  have hordered : briefDocument.Ordered := by decide
  have hread : Document.read briefDocument = .ok briefDefinition := by
    rw [Document.read_eq_ok_iff hordered]
    refine ⟨_, rfl, .inl ⟨.inl rfl, rfl⟩, .inl ⟨.inr rfl, rfl⟩, ⟨_, rfl, _, rfl, ?_⟩,
      .inr ⟨_, rfl, _, rfl, ?_⟩⟩
    · refine .cons ⟨_, rfl, ⟨_, rfl, rfl, by decide⟩, ⟨_, rfl, rfl, by decide⟩,
        .inl ⟨.inl rfl, rfl⟩, .inl ⟨.inl rfl, rfl⟩, .inl ⟨.inl rfl, rfl⟩,
        .inr ⟨_, rfl, _, rfl, ?_⟩⟩ .nil
      refine ⟨.inl ⟨.inl rfl, rfl⟩, .inl ⟨.inl rfl, rfl⟩, .inl ⟨.inl rfl, rfl⟩,
        .inl ⟨.inl rfl, rfl⟩, .inr ⟨_, rfl, _, rfl, ?_⟩⟩
      exact ⟨.inl ⟨.inl rfl, rfl⟩, .inl ⟨.inl rfl, rfl⟩, .inl ⟨.inl rfl, rfl⟩,
        .inl ⟨.inl rfl, rfl⟩, .inr ⟨_, rfl, .ofUInt64 1, rfl, by decide, rfl⟩⟩
    · exact .cons ⟨_, rfl, ⟨_, rfl, rfl, by decide⟩, ⟨_, rfl, rfl, by decide⟩,
        .inl ⟨.inl rfl, rfl⟩, .inl ⟨.inl rfl, rfl⟩⟩ .nil
  exact ⟨hordered, hread, (write_read_cycle.2 briefDocument briefDefinition hordered hread).2⟩

end FlowGraph
