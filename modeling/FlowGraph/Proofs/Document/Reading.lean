import FlowGraph.Proofs.Document.Member

/-!
# Reading workflow documents

A document is read in two passes: every member of every object is checked, and
then a definition is read from what is left without the null members.  Object by
object, from retry policies up to the document, the two passes together accept
what the grammar allows and give the definition that it names.

Main results:

- Theorems `retryPolicy_iff`, `activityOptions_iff`, `node_iff`,
  `connection_iff` and `definition_iff`: an object that passes its checks and is
  read spells what it is read as.
- Theorem `read_eq_ok_iff`: reading an ordered document, which every parsed one is,
  gives a definition exactly when the document spells it.
- Theorem `read_grammar`: the documents that are read are those of the grammar,
  and each is read as the definition it spells.
-/

namespace FlowGraph

namespace Document

/-! ## Objects and lists -/

section

variable {α : Type} {inside : Members → List Finding} {f : Members → Members} {read : ReadAs α}
  {spelled : Members → α → Prop} {accepted : Option Json → Prop} {item : Json → Prop}
  {change : Json → Json} {spelling : Spelling α}

/-- An optional object passes its check when its members do. -/
def ObjectPasses (inside : Members → List Finding) : Option Json → Prop
  | some (.object inner) => inside inner = []
  | other => Check.object other = none

theorem ofObject_eq_nil (members : Members) (key : String) :
    Finding.ofObject members key inside = [] ↔ ObjectPasses inside (members.lookup key) := by
  unfold Finding.ofObject ObjectPasses
  generalize members.lookup key = member
  rcases member with _ | v
  · simp [Check.object, Check.optional]
  · cases v <;> simp [Finding.under, Check.object, Check.optional]

theorem agrees_object
    (h : ∀ ms x, (Json.object ms).Ordered →
      (inside ms = [] ∧ read (.object (f ms)) = .ok x ↔ spelled ms x)) :
    AgreesOr (ObjectPasses inside) (fun v => read (inObject f v)) (Spelling.object spelled) := by
  refine ⟨rfl, rfl, ?_⟩
  intro v x hordered
  cases v with
  | object ms =>
      constructor
      · rintro ⟨_, ⟨⟩, hspelled⟩
        obtain ⟨hpasses, hread⟩ := (h ms x hordered).mpr hspelled
        exact ⟨by simp, hpasses, hread⟩
      · rintro ⟨-, hpasses, hread⟩
        exact ⟨ms, rfl, (h ms x hordered).mp ⟨hpasses, hread⟩⟩
  | _ => simp [Spelling.object, ObjectPasses, Check.object, Check.optional]

/-- An item that must be an object. -/
def ItemPasses (inside : Members → List Finding) (v : Json) : Prop :=
  ∃ ms, v = .object ms ∧ inside ms = []

theorem item_iff {v : Json} {x : α} (hv : v.Ordered)
    (h : ∀ ms x, (Json.object ms).Ordered →
      (inside ms = [] ∧ read (.object (f ms)) = .ok x ↔ spelled ms x)) :
    ItemPasses inside v ∧ read (inObject f v) = .ok x ↔ Spelling.object spelled v x := by
  constructor
  · rintro ⟨⟨ms, rfl, hpasses⟩, hread⟩
    exact ⟨ms, rfl, (h ms x hv).mp ⟨hpasses, hread⟩⟩
  · rintro ⟨ms, rfl, hspelled⟩
    obtain ⟨hpasses, hread⟩ := (h ms x hv).mpr hspelled
    exact ⟨⟨ms, rfl, hpasses⟩, hread⟩

/-- The items of a list are read one by one. -/
theorem items_iff {items : List Json} {xs : List α}
    (h : ∀ v ∈ items, ∀ x, item v ∧ read (change v) = .ok x ↔ spelling v x) :
    (∀ v ∈ items, item v) ∧ (items.map change).mapM read = .ok xs ↔
      List.Forall₂ spelling items xs := by
  induction items generalizing xs with
  | nil =>
      rw [List.forall₂_nil_left_iff]
      simp [pure, Except.pure, eq_comm]
  | cons v items ih =>
      obtain ⟨hv, hitems⟩ := List.forall_mem_cons.mp h
      simp only [List.map_cons, List.mapM_cons, bind_eq_ok, pure_eq_ok, List.forall_mem_cons]
      rw [List.forall₂_cons_left_iff]
      constructor
      · rintro ⟨⟨hitem, hrest⟩, x, hx, xs, hxs, rfl⟩
        exact ⟨x, xs, (hv x).mp ⟨hitem, hx⟩, (ih hitems).mp ⟨hrest, hxs⟩, rfl⟩
      · rintro ⟨x, xs, hx, hxs, rfl⟩
        obtain ⟨hitem, hread⟩ := (hv x).mpr hx
        obtain ⟨hrest, hreads⟩ := (ih hitems).mpr hxs
        exact ⟨⟨hitem, hrest⟩, x, hread, xs, hreads, rfl⟩

/-- A list passes when every item does, and is read item by item. -/
theorem agrees_array
    (haccepted : ∀ v, v ≠ .null → (accepted (some v) ↔ Json.ArrayOf (ItemPasses inside) v))
    (h : ∀ ms x, (Json.object ms).Ordered →
      (inside ms = [] ∧ read (.object (f ms)) = .ok x ↔ spelled ms x)) :
    Agrees accepted (fun v => ReadAs.list read (inItems f v))
      (Spelling.array (Spelling.object spelled)) := by
  intro v xs hordered
  constructor
  · rintro ⟨items, rfl, hall⟩
    have hitems := (items_iff fun v hv x => item_iff (Json.ordered_array.mp hordered v hv) h).mpr
      hall
    exact ⟨by simp, (haccepted _ (by simp)).mpr ⟨items, rfl, hitems.1⟩, hitems.2⟩
  · rintro ⟨hne, hpasses, hread⟩
    obtain ⟨items, rfl, hall⟩ := (haccepted v hne).mp hpasses
    exact ⟨items, rfl, (items_iff fun v hv x =>
      item_iff (Json.ordered_array.mp hordered v hv) h).mp ⟨hall, hread⟩⟩

end

/-! ## Records -/

theorem ofChecks_eq_nil (members : Members) (checks : List (String × Check)) :
    Finding.ofChecks members checks = [] ↔
      ∀ entry ∈ checks, entry.2 (members.lookup entry.1) = none := by
  simp [Finding.ofChecks, List.filterMap_eq_nil_iff]

theorem retryPolicy_read_iff (ms : Members) (p : RetryPolicy) :
    RetryPolicy.read (.object ms) = .ok p ↔
      ms.defaulted "enabled" true .bool = .ok p.enabled ∧
      ms.defaulted "maximumAttempts" 3 .uint32 = .ok p.maximumAttempts ∧
      ms.defaulted "initialInterval" 1 .uint64 = .ok p.initialInterval ∧
      ms.defaulted "backoffCoefficient" .two .real = .ok p.backoffCoefficient ∧
      ms.defaulted "maximumInterval" 0 .uint64 = .ok p.maximumInterval := by
  simp only [RetryPolicy.read, ReadAs.record, bind_eq_ok, pure_eq_ok, Except.ok.injEq,
    exists_eq_left']
  constructor
  · rintro ⟨_, h₁, _, h₂, _, h₃, _, h₄, _, h₅, rfl⟩
    exact ⟨h₁, h₂, h₃, h₄, h₅⟩
  · rintro ⟨h₁, h₂, h₃, h₄, h₅⟩
    exact ⟨_, h₁, _, h₂, _, h₃, _, h₄, _, h₅, rfl⟩

/-- A retry policy that passes its checks and is read spells what it is read as. -/
theorem retryPolicy_iff (retry : Members) (p : RetryPolicy) (h : (Json.object retry).Ordered) :
    Finding.ofRetry retry = [] ∧ RetryPolicy.read (.object (present retry)) = .ok p ↔
      RetryPolicy.SpelledBy retry p := by
  have hstrips := strips_present (Json.ordered_object.mp h).1
  have henabled := spellsOr_iff (x := p.enabled) (d := true) h (hstrips "enabled") agrees_flag
  have hattempts := spellsOr_iff (x := p.maximumAttempts) (d := 3) h
    (hstrips "maximumAttempts") (agrees_attempts .belowOne)
  have hinitial := spellsOr_iff (x := p.initialInterval) (d := 1) h
    (hstrips "initialInterval") agrees_natural
  have hmaximum := spellsOr_iff (x := p.maximumInterval) (d := 0) h
    (hstrips "maximumInterval") agrees_natural
  have hcoefficient := spellsOr_iff (x := p.backoffCoefficient) (d := .two) h
    (hstrips "backoffCoefficient") agrees_coefficient
  rw [retryPolicy_read_iff, Finding.ofRetry, ofChecks_eq_nil]
  simp only [List.forall_mem_cons, List.not_mem_nil, false_imp_iff, implies_true, and_true]
  constructor
  · rintro ⟨⟨c₁, c₂, c₃, c₄, c₅⟩, r₁, r₂, r₃, r₄, r₅⟩
    exact ⟨henabled.mp ⟨c₁, r₁⟩, hattempts.mp ⟨c₂, r₂⟩, hinitial.mp ⟨c₃, r₃⟩,
      hmaximum.mp ⟨c₄, r₅⟩, hcoefficient.mp ⟨c₅, r₄⟩⟩
  · rintro ⟨h₁, h₂, h₃, h₄, h₅⟩
    obtain ⟨c₁, r₁⟩ := henabled.mpr h₁
    obtain ⟨c₂, r₂⟩ := hattempts.mpr h₂
    obtain ⟨c₃, r₃⟩ := hinitial.mpr h₃
    obtain ⟨c₄, r₅⟩ := hmaximum.mpr h₄
    obtain ⟨c₅, r₄⟩ := hcoefficient.mpr h₅
    exact ⟨⟨c₁, c₂, c₃, c₄, c₅⟩, r₁, r₂, r₃, r₄, r₅⟩

theorem activityOptions_read_iff (ms : Members) (o : ActivityOptions) :
    ActivityOptions.read (.object ms) = .ok o ↔
      ms.defaulted "startToCloseTimeout" 300 .uint64 = .ok o.startToCloseTimeout ∧
      ms.defaulted "scheduleToCloseTimeout" 0 .uint64 = .ok o.scheduleToCloseTimeout ∧
      ms.defaulted "heartbeatTimeout" 0 .uint64 = .ok o.heartbeatTimeout ∧
      ms.defaulted "retry" {} RetryPolicy.read = .ok o.retry ∧
      ms.defaulted "continueOnFail" false .bool = .ok o.continueOnFail := by
  simp only [ActivityOptions.read, ReadAs.record, bind_eq_ok, pure_eq_ok, Except.ok.injEq,
    exists_eq_left']
  constructor
  · rintro ⟨_, h₁, _, h₂, _, h₃, _, h₄, _, h₅, rfl⟩
    exact ⟨h₁, h₂, h₃, h₄, h₅⟩
  · rintro ⟨h₁, h₂, h₃, h₄, h₅⟩
    exact ⟨_, h₁, _, h₂, _, h₃, _, h₄, _, h₅, rfl⟩

/-- Execution options without null members, down to their retry policy. -/
def presentOptions (options : Members) : Members := mapObject "retry" present (present options)

/-- Execution options that pass their checks and are read spell what they are read as. -/
theorem activityOptions_iff (options : Members) (o : ActivityOptions)
    (h : (Json.object options).Ordered) :
    Finding.ofOptions options = [] ∧
        ActivityOptions.read (.object (presentOptions options)) = .ok o ↔
      ActivityOptions.SpelledBy options o := by
  have hpresent := strips_present (Json.ordered_object.mp h).1
  have hstrips : ∀ key, key ≠ "retry" → Strips options (presentOptions options) key id :=
    fun key hne => (hpresent key).mapObject_other hne
  have hstart := spellsOr_iff (x := o.startToCloseTimeout) (d := 300) h
    (hstrips "startToCloseTimeout" (by decide)) (agrees_positive .belowOneSecond)
  have hschedule := spellsOr_iff (x := o.scheduleToCloseTimeout) (d := 0) h
    (hstrips "scheduleToCloseTimeout" (by decide)) agrees_natural
  have hheartbeat := spellsOr_iff (x := o.heartbeatTimeout) (d := 0) h
    (hstrips "heartbeatTimeout" (by decide)) agrees_natural
  have hcontinue := spellsOr_iff (x := o.continueOnFail) (d := false) h
    (hstrips "continueOnFail" (by decide)) agrees_flag
  have hretry := spellsOr_iff (x := o.retry) (d := {}) h (hpresent "retry").mapObject_self
    (agrees_object retryPolicy_iff)
  rw [activityOptions_read_iff, Finding.ofOptions, List.append_eq_nil_iff, ofChecks_eq_nil,
    ofObject_eq_nil]
  simp only [List.forall_mem_cons, List.not_mem_nil, false_imp_iff, implies_true, and_true]
  constructor
  · rintro ⟨⟨⟨c₁, c₂, c₃, c₄⟩, c₅⟩, r₁, r₂, r₃, r₅, r₄⟩
    exact ⟨hstart.mp ⟨c₁, r₁⟩, hschedule.mp ⟨c₂, r₂⟩, hheartbeat.mp ⟨c₃, r₃⟩,
      hcontinue.mp ⟨c₄, r₄⟩, hretry.mp ⟨c₅, r₅⟩⟩
  · rintro ⟨h₁, h₂, h₃, h₄, h₅⟩
    obtain ⟨c₁, r₁⟩ := hstart.mpr h₁
    obtain ⟨c₂, r₂⟩ := hschedule.mpr h₂
    obtain ⟨c₃, r₃⟩ := hheartbeat.mpr h₃
    obtain ⟨c₄, r₄⟩ := hcontinue.mpr h₄
    obtain ⟨c₅, r₅⟩ := hretry.mpr h₅
    exact ⟨⟨⟨c₁, c₂, c₃, c₄⟩, c₅⟩, r₁, r₂, r₃, r₅, r₄⟩

theorem node_read_iff (ms : Members) (n : Node) :
    Node.read (.object ms) = .ok n ↔
      ms.required "id" .string = .ok n.id ∧
      ms.required "type" .string = .ok n.typeTag ∧
      ms.defaulted "name" "" .string = .ok n.name ∧
      ms.defaulted "parameters" [] .members = .ok n.parameters ∧
      ms.defaulted "options" {} ActivityOptions.read = .ok n.options ∧
      ms.defaulted "disabled" false .bool = .ok n.disabled := by
  simp only [Node.read, ReadAs.record, bind_eq_ok, pure_eq_ok, Except.ok.injEq,
    exists_eq_left']
  constructor
  · rintro ⟨_, h₁, _, h₂, _, h₃, _, h₄, _, h₅, _, h₆, rfl⟩
    exact ⟨h₁, h₂, h₃, h₄, h₅, h₆⟩
  · rintro ⟨h₁, h₂, h₃, h₄, h₅, h₆⟩
    exact ⟨_, h₁, _, h₂, _, h₃, _, h₄, _, h₅, _, h₆, rfl⟩

/-- A node that passes its checks and is read spells what it is read as. -/
theorem node_iff (node : Members) (n : Node) (h : (Json.object node).Ordered) :
    Finding.ofNode node = [] ∧ Node.read (.object (presentItem node)) = .ok n ↔
      Node.SpelledBy node n := by
  have hpresent := strips_present (Json.ordered_object.mp h).1
  have hstrips : ∀ key, key ≠ "options" → Strips node (presentItem node) key id :=
    fun key hne => (hpresent key).mapObject_other hne
  have hid := spells_iff (x := n.id) h (hstrips "id" (by decide)) agrees_visible
  have htype := spells_iff (x := n.typeTag) h (hstrips "type" (by decide)) agrees_visible
  have hname := spellsOr_iff (x := n.name) (d := "") h (hstrips "name" (by decide)) agrees_text
  have hparameters := spellsOr_iff (x := n.parameters) (d := []) h
    (hstrips "parameters" (by decide)) agrees_members
  have hdisabled := spellsOr_iff (x := n.disabled) (d := false) h
    (hstrips "disabled" (by decide)) agrees_flag
  have hoptions := spellsOr_iff (x := n.options) (d := {}) h (hpresent "options").mapObject_self
    (agrees_object activityOptions_iff)
  rw [node_read_iff, Finding.ofNode, List.append_eq_nil_iff, ofChecks_eq_nil, ofObject_eq_nil]
  simp only [List.forall_mem_cons, List.not_mem_nil, false_imp_iff, implies_true, and_true]
  constructor
  · rintro ⟨⟨⟨c₁, c₂, c₃, c₄, c₅⟩, c₆⟩, r₁, r₂, r₃, r₄, r₆, r₅⟩
    exact ⟨hid.mp ⟨c₁, r₁⟩, htype.mp ⟨c₂, r₂⟩, hname.mp ⟨c₃, r₃⟩, hparameters.mp ⟨c₄, r₄⟩,
      hdisabled.mp ⟨c₅, r₅⟩, hoptions.mp ⟨c₆, r₆⟩⟩
  · rintro ⟨h₁, h₂, h₃, h₄, h₅, h₆⟩
    obtain ⟨c₁, r₁⟩ := hid.mpr h₁
    obtain ⟨c₂, r₂⟩ := htype.mpr h₂
    obtain ⟨c₃, r₃⟩ := hname.mpr h₃
    obtain ⟨c₄, r₄⟩ := hparameters.mpr h₄
    obtain ⟨c₅, r₅⟩ := hdisabled.mpr h₅
    obtain ⟨c₆, r₆⟩ := hoptions.mpr h₆
    exact ⟨⟨⟨c₁, c₂, c₃, c₄, c₅⟩, c₆⟩, r₁, r₂, r₃, r₄, r₆, r₅⟩

theorem connection_read_iff (ms : Members) (c : Connection) :
    Connection.read (.object ms) = .ok c ↔
      ms.required "source" .string = .ok c.source ∧
      ms.defaulted "sourceOutput" "main" .string = .ok c.sourceOutput ∧
      ms.required "target" .string = .ok c.target ∧
      ms.defaulted "targetInput" "main" .string = .ok c.targetInput := by
  simp only [Connection.read, ReadAs.record, mainLabel, bind_eq_ok, pure_eq_ok,
    Except.ok.injEq, exists_eq_left']
  constructor
  · rintro ⟨_, h₁, _, h₂, _, h₃, _, h₄, rfl⟩
    exact ⟨h₁, h₂, h₃, h₄⟩
  · rintro ⟨h₁, h₂, h₃, h₄⟩
    exact ⟨_, h₁, _, h₂, _, h₃, _, h₄, rfl⟩

/-- A connection that passes its checks and is read spells what it is read as. -/
theorem connection_iff (connection : Members) (c : Connection)
    (h : (Json.object connection).Ordered) :
    Finding.ofConnection connection = [] ∧
        Connection.read (.object (presentItem connection)) = .ok c ↔
      Connection.SpelledBy connection c := by
  have hpresent := strips_present (Json.ordered_object.mp h).1
  have hstrips : ∀ key, key ≠ "options" → Strips connection (presentItem connection) key id :=
    fun key hne => (hpresent key).mapObject_other hne
  have hsource := spells_iff (x := c.source) h (hstrips "source" (by decide)) agrees_visible
  have htarget := spells_iff (x := c.target) h (hstrips "target" (by decide)) agrees_visible
  have houtput := spellsOr_iff (x := c.sourceOutput) (d := "main") h
    (hstrips "sourceOutput" (by decide)) agrees_label
  have hinput := spellsOr_iff (x := c.targetInput) (d := "main") h
    (hstrips "targetInput" (by decide)) agrees_label
  rw [connection_read_iff, Finding.ofConnection, ofChecks_eq_nil]
  simp only [List.forall_mem_cons, List.not_mem_nil, false_imp_iff, implies_true, and_true]
  constructor
  · rintro ⟨⟨c₁, c₂, c₃, c₄⟩, r₁, r₃, r₂, r₄⟩
    exact ⟨hsource.mp ⟨c₁, r₁⟩, htarget.mp ⟨c₂, r₂⟩, houtput.mp ⟨c₃, r₃⟩, hinput.mp ⟨c₄, r₄⟩⟩
  · rintro ⟨h₁, h₂, h₃, h₄⟩
    obtain ⟨c₁, r₁⟩ := hsource.mpr h₁
    obtain ⟨c₂, r₂⟩ := htarget.mpr h₂
    obtain ⟨c₃, r₃⟩ := houtput.mpr h₃
    obtain ⟨c₄, r₄⟩ := hinput.mpr h₄
    exact ⟨⟨c₁, c₂, c₃, c₄⟩, r₁, r₃, r₂, r₄⟩

/-! ## Documents -/

theorem itemViolations_eq_nil {check : Nat → Json → List Violation} {item : Json → Prop}
    {items : List Json} (h : ∀ index v, check index v = [] ↔ item v) :
    itemViolations check items = [] ↔ ∀ v ∈ items, item v := by
  simp only [itemViolations, List.flatMap_eq_nil_iff, h]
  constructor
  · intro hall v hv
    rw [← List.zipIdx_map_fst 0 items] at hv
    obtain ⟨entry, hentry, rfl⟩ := List.mem_map.mp hv
    exact hall entry hentry
  · intro hall entry hentry
    refine hall entry.1 ?_
    rw [← List.zipIdx_map_fst 0 items]
    exact List.mem_map_of_mem hentry

theorem nodeViolations_eq_nil (index : Nat) (v : Json) :
    nodeViolations index v = [] ↔ ItemPasses Finding.ofNode v := by
  cases v <;> simp [nodeViolations, ItemPasses]

theorem connectionViolations_eq_nil (index : Nat) (v : Json) :
    connectionViolations index v = [] ↔ ItemPasses Finding.ofConnection v := by
  cases v <;> simp [connectionViolations, ItemPasses]

theorem definition_read_iff (ms : Members) (d : Definition) :
    Definition.read (.object ms) = .ok d ↔
      ms.defaulted "name" "" .string = .ok d.name ∧
      ms.defaulted "description" "" .string = .ok d.description ∧
      ms.required "nodes" (.list Node.read) = .ok d.nodes ∧
      ms.defaulted "connections" [] (.list Connection.read) = .ok d.connections := by
  simp only [Definition.read, ReadAs.record, bind_eq_ok, pure_eq_ok, Except.ok.injEq,
    exists_eq_left']
  constructor
  · rintro ⟨_, h₁, _, h₂, _, h₃, _, h₄, rfl⟩
    exact ⟨h₁, h₂, h₃, h₄⟩
  · rintro ⟨h₁, h₂, h₃, h₄⟩
    exact ⟨_, h₁, _, h₂, _, h₃, _, h₄, rfl⟩

/-- The list of nodes passes its check. -/
def NodesPass (member : Option Json) : Prop :=
  ∃ v, member = some v ∧ Json.ArrayOf (ItemPasses Finding.ofNode) v

/-- The list of connections passes its check. -/
def ConnectionsPass (member : Option Json) : Prop :=
  member = none ∨ member = some .null ∨
    ∃ v, member = some v ∧ Json.ArrayOf (ItemPasses Finding.ofConnection) v

theorem violations_eq_nil (root : Members) :
    violations (.object root) = [] ↔
      (Check.text (root.lookup "name") = none ∧ Check.text (root.lookup "description") = none) ∧
        NodesPass (root.lookup "nodes") ∧ ConnectionsPass (root.lookup "connections") := by
  rw [violations, List.append_eq_nil_iff, List.append_eq_nil_iff, List.map_eq_nil_iff,
    ofChecks_eq_nil, and_assoc]
  refine and_congr (by simp) (and_congr ?_ ?_)
  · generalize root.lookup "nodes" = nodes
    rcases nodes with _ | v
    · simp [NodesPass]
    · cases v <;> simp [NodesPass, Json.ArrayOf, itemViolations_eq_nil nodeViolations_eq_nil]
  · generalize root.lookup "connections" = connections
    rcases connections with _ | v
    · simp [ConnectionsPass]
    · cases v <;>
        simp [ConnectionsPass, Json.ArrayOf, itemViolations_eq_nil connectionViolations_eq_nil]

/-- The members of a document without null members in its own objects. -/
def presentRoot (root : Members) : Members :=
  mapItems "connections" presentItem (mapItems "nodes" presentItem (present root))

/-- A document that passes its checks and is read spells the definition it is read as. -/
theorem definition_iff (root : Members) (d : Definition) (h : (Json.object root).Ordered) :
    violations (.object root) = [] ∧ Definition.read (.object (presentRoot root)) = .ok d ↔
      Definition.Fields root d := by
  have hpresent := strips_present (Json.ordered_object.mp h).1
  have hstrips : ∀ key, key ≠ "nodes" → key ≠ "connections" →
      Strips root (presentRoot root) key id := fun key hnodes hconnections =>
    ((hpresent key).mapItems_other hnodes).mapItems_other hconnections
  have hnodesStrips : Strips root (presentRoot root) "nodes" (inItems presentItem) :=
    (hpresent "nodes").mapItems_self.mapItems_other (by decide)
  have hconnectionsStrips : Strips root (presentRoot root) "connections" (inItems presentItem) :=
    ((hpresent "connections").mapItems_other (by decide)).mapItems_self
  have hname := spellsOr_iff (x := d.name) (d := "") h
    (hstrips "name" (by decide) (by decide)) agrees_text
  have hdescription := spellsOr_iff (x := d.description) (d := "") h
    (hstrips "description" (by decide) (by decide)) agrees_text
  have hnodesAgree : Agrees NodesPass (fun v => ReadAs.list Node.read (inItems presentItem v))
      (Spelling.array (Spelling.object Node.SpelledBy)) :=
    agrees_array (fun v _ => by simp [NodesPass]) node_iff
  have hnodes := spells_iff (x := d.nodes) h hnodesStrips hnodesAgree
  have hconnectionsAgree : AgreesOr ConnectionsPass
      (fun v => ReadAs.list Connection.read (inItems presentItem v))
      (Spelling.array (Spelling.object Connection.SpelledBy)) := by
    refine ⟨.inl rfl, .inr (.inl rfl), agrees_array (fun v hne => ?_) connection_iff⟩
    simp [ConnectionsPass, hne]
  have hconnections := spellsOr_iff (x := d.connections) (d := []) h hconnectionsStrips
    hconnectionsAgree
  rw [violations_eq_nil, definition_read_iff]
  constructor
  · rintro ⟨⟨⟨c₁, c₂⟩, c₃, c₄⟩, r₁, r₂, r₃, r₄⟩
    exact ⟨hname.mp ⟨c₁, r₁⟩, hdescription.mp ⟨c₂, r₂⟩, hnodes.mp ⟨c₃, r₃⟩,
      hconnections.mp ⟨c₄, r₄⟩⟩
  · rintro ⟨h₁, h₂, h₃, h₄⟩
    obtain ⟨c₁, r₁⟩ := hname.mpr h₁
    obtain ⟨c₂, r₂⟩ := hdescription.mpr h₂
    obtain ⟨c₃, r₃⟩ := hnodes.mpr h₃
    obtain ⟨c₄, r₄⟩ := hconnections.mpr h₄
    exact ⟨⟨⟨c₁, c₂⟩, c₃, c₄⟩, r₁, r₂, r₃, r₄⟩

/-- Reading an ordered document gives a definition exactly when the document spells it. -/
theorem read_eq_ok_iff {v : Json} (h : v.Ordered) (d : Definition) :
    Document.read v = .ok d ↔ Definition.SpelledBy v d := by
  have hread : Document.read v = .ok d ↔
      violations v = [] ∧ Definition.read (withoutNulls v) = .ok d := by
    unfold Document.read
    split
    next hnone =>
      rw [hnone]
      cases Definition.read (withoutNulls v) <;> simp
    next hsome =>
      constructor
      · intro h
        cases h
      · exact fun h => absurd h.1 hsome
  rw [hread]
  cases v with
  | object root =>
      change violations (.object root) = [] ∧ Definition.read (.object (presentRoot root)) = .ok d ↔ _
      rw [definition_iff root d h]
      constructor
      · exact fun hfields => ⟨root, rfl, hfields⟩
      · rintro ⟨_, ⟨⟩, hfields⟩
        exact hfields
  | _ => simp [violations, Definition.SpelledBy, Spelling.object]

/-- The documents that are read are those of the grammar, and each is read as the definition that
it spells.  A document that comes from a text is ordered, by `Json.ordered_of_parse`. -/
theorem read_grammar (v : Json) (h : v.Ordered) :
    ((∃ d, Document.read v = .ok d) ↔ WellShaped v) ∧
      ∀ d, Document.read v = .ok d ↔ Definition.SpelledBy v d := by
  refine ⟨?_, read_eq_ok_iff h⟩
  rw [wellShaped_iff]
  exact exists_congr (read_eq_ok_iff h)

/-- A document with null members at every level, the largest number of attempts and an integer as
its coefficient. -/
def sampleDocument : Json :=
  .object [
    ("connections", .array [.object [
      ("source", .string "a"), ("sourceOutput", .null), ("target", .string "a")]]),
    ("description", .null),
    ("nodes", .array [.object [
      ("disabled", .null),
      ("id", .string "a"),
      ("options", .object [
        ("heartbeatTimeout", .null),
        ("retry", .object [
          ("backoffCoefficient", .ofUInt64 1), ("enabled", .null),
          ("maximumAttempts", .ofUInt64 0xFFFFFFFF)]),
        ("startToCloseTimeout", .ofUInt64 1)]),
      ("parameters", .object [("kept", .null)]),
      ("type", .string "t")]])]

/-- What the document spells. -/
def sampleDefinition : Definition where
  nodes := [{
    id := "a"
    typeTag := "t"
    parameters := [("kept", .null)]
    options := {
      startToCloseTimeout := 1
      retry := { maximumAttempts := 0xFFFFFFFF, backoffCoefficient := (Number.ofUInt64 1).toReal } } }]
  connections := [{ source := "a", target := "a" }]

theorem read_grammar_sampleDocument :
    sampleDocument.Ordered ∧ WellShaped sampleDocument ∧
      Document.read sampleDocument = .ok sampleDefinition := by
  have hordered : sampleDocument.Ordered := by decide
  have hspelled : Definition.SpelledBy sampleDocument sampleDefinition := by
    refine ⟨_, rfl, .inl ⟨.inl rfl, rfl⟩, .inl ⟨.inr rfl, rfl⟩, ⟨_, rfl, _, rfl, ?_⟩,
      .inr ⟨_, rfl, _, rfl, ?_⟩⟩
    · refine .cons ⟨_, rfl, ⟨_, rfl, rfl, by decide⟩, ⟨_, rfl, rfl, by decide⟩,
        .inl ⟨.inl rfl, rfl⟩, .inr ⟨_, rfl, rfl⟩, .inl ⟨.inr rfl, rfl⟩,
        .inr ⟨_, rfl, _, rfl, ?_⟩⟩ .nil
      refine ⟨.inr ⟨_, rfl, rfl, by decide⟩, .inl ⟨.inl rfl, rfl⟩, .inl ⟨.inr rfl, rfl⟩,
        .inl ⟨.inl rfl, rfl⟩, .inr ⟨_, rfl, _, rfl, ?_⟩⟩
      exact ⟨.inl ⟨.inr rfl, rfl⟩, .inr ⟨_, rfl, rfl, by decide⟩, .inl ⟨.inl rfl, rfl⟩,
        .inl ⟨.inl rfl, rfl⟩, .inr ⟨_, rfl, .ofUInt64 1, rfl, by decide, rfl⟩⟩
    · exact .cons ⟨_, rfl, ⟨_, rfl, rfl, by decide⟩, ⟨_, rfl, rfl, by decide⟩,
        .inl ⟨.inr rfl, rfl⟩, .inl ⟨.inl rfl, rfl⟩⟩ .nil
  obtain ⟨haccepted, hread⟩ := read_grammar sampleDocument hordered
  have hsample := (hread sampleDefinition).mpr hspelled
  exact ⟨hordered, haccepted.mp ⟨sampleDefinition, hsample⟩, hsample⟩

end Document

end FlowGraph
