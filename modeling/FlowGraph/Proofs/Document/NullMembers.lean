import FlowGraph.Proofs.Document.Reading
import FlowGraph.Proofs.Document.Schema
import Mathlib.Data.List.Sort

/-!
# Null members of documents

A null member reads as an absent one.  The checks pass over it and the reading leaves it
out, and both look at the members of an object by their names; so an object without the
null member is checked and read as before, and so is every object around it.  Parameters
are the exception: they are read as they stand, nulls included.

Main results:

- Theorem `Members.eq_of_lookup`: ordered members are determined by their look-ups.
- Theorem `Stripping.without`: leaving out null members does not tell a null member from
  a missing one.
- Theorem `Unnoticed.inMember`: a change that goes unnoticed in a member goes unnoticed
  in the object around it.
- Theorem `read_without_null`: an optional null member can be removed without a
  difference to the reading, and the parameters that are read are those of the document.
-/

namespace FlowGraph

open Json (Path at? at?_none exists_array_of_at? exists_object_of_at? writeAt)

/-- Ordered members are determined by their look-ups. -/
theorem Members.eq_of_lookup {ms ms' : Members} (h : ms.Ordered) (h' : ms'.Ordered)
    (hlookup : ∀ name, ms.lookup name = ms'.lookup name) : ms = ms' := by
  have hperm : ms.Perm ms' := by
    refine (List.perm_ext_iff_of_nodup (.of_map _ (nodup_names_of_ordered h))
      (.of_map _ (nodup_names_of_ordered h'))).mpr ?_
    rintro ⟨name, v⟩
    rw [← lookup_eq_some_iff h, ← lookup_eq_some_iff h', hlookup]
  exact hperm.eq_of_pairwise (fun a b _ _ hab hba => absurd hba (String.lt_asymm hab)) h h'

namespace Document

variable {ms : Members} {key : String} {old new : Json}

/-! ## Leaving out null members -/

/-- Objects are left without their null members, the other members changed by their
names. -/
structure Stripping (strip : Members → Members) (change : String → Json → Json) : Prop where
  ordered : ∀ {ms : Members}, ms.Ordered → (strip ms).Ordered
  strips : ∀ {ms : Members}, ms.Ordered → ∀ name, Strips ms (strip ms) name (change name)

theorem stripping_present : Stripping present fun _ => id where
  ordered := List.Pairwise.filter _
  strips := strips_present

section

variable {strip : Members → Members} {change : String → Json → Json} {f : Members → Members}

theorem Stripping.revise (h : Stripping strip change) {g : Json → Json} (hkey : change key = id) :
    Stripping (fun ms => (strip ms).revise key g) (Function.update change key g) where
  ordered hms := List.pairwise_map.mpr (h.ordered hms)
  strips := by
    intro ms hms name
    have hname := h.strips hms name
    by_cases heq : name = key
    · subst heq
      rw [Function.update_self]
      rw [hkey] at hname
      exact hname.revise_self
    · rw [Function.update_of_ne heq]
      exact hname.revise_other heq

theorem Stripping.mapObject (h : Stripping strip change) (hkey : change key = id) :
    Stripping (fun ms => mapObject key f (strip ms))
      (Function.update change key (inObject f)) := by
  simp only [mapObject_eq_revise]
  exact h.revise hkey

theorem Stripping.mapItems (h : Stripping strip change) (hkey : change key = id) :
    Stripping (fun ms => mapItems key f (strip ms))
      (Function.update change key (inItems f)) := by
  simp only [mapItems_eq_revise]
  exact h.revise hkey

/-- Leaving out null members does not tell a null member from a missing one. -/
theorem Stripping.without (h : Stripping strip change) (hms : ms.Ordered)
    (hnull : ms.lookup key = some .null) : strip (ms.without key) = strip ms := by
  have hwithout := Members.ordered_without hms key
  refine Members.eq_of_lookup (h.ordered hwithout) (h.ordered hms) fun name => ?_
  rw [h.strips hwithout, h.strips hms, Members.lookup_without]
  split
  next heq =>
    subst heq
    rw [hnull]
    rfl
  next => rfl

/-- Values that are changed into the same one stand for each other. -/
theorem Stripping.put (h : Stripping strip change) (hms : ms.Ordered)
    (hold : ms.lookup key = some old) (hnull : new.isNull = old.isNull)
    (hchange : change key new = change key old) : strip (ms.put key new) = strip ms := by
  have hput := Members.ordered_put hms key new
  refine Members.eq_of_lookup (h.ordered hput) (h.ordered hms) fun name => ?_
  rw [h.strips hput, h.strips hms, Members.lookup_put]
  split
  next heq =>
    subst heq
    rw [hold, Option.filter_some, Option.filter_some, hnull]
    split
    · rw [Option.map_some, Option.map_some, hchange]
    · rfl
  next => rfl

end

theorem stripping_options :
    Stripping presentOptions (Function.update (fun _ => id) "retry" (inObject present)) :=
  stripping_present.mapObject rfl

theorem stripping_item :
    Stripping presentItem (Function.update (fun _ => id) "options" (inObject presentOptions)) :=
  stripping_present.mapObject rfl

/-- How the members of a document are changed. -/
def rootChange : String → Json → Json :=
  Function.update (Function.update (fun _ => id) "nodes" (inItems presentItem)) "connections"
    (inItems presentItem)

theorem stripping_root : Stripping presentRoot rootChange :=
  (stripping_present.mapItems rfl).mapItems (Function.update_of_ne (by decide) _ _)

/-! ## Checks -/

section

variable {checks : List (String × Check)} {inside : Members → List Finding}

/-- Checks that take null for missing find the same without a null member. -/
theorem ofChecks_without (hnull : ms.lookup key = some .null)
    (hchecks : ∀ entry ∈ checks, entry.1 = key → entry.2 (some .null) = entry.2 none) :
    Finding.ofChecks (ms.without key) checks = Finding.ofChecks ms checks := by
  refine List.filterMap_congr fun entry hentry => ?_
  rw [Members.lookup_without]
  split
  next heq => rw [heq, hnull, hchecks entry hentry heq]
  next => rfl

/-- Checks look at no other members than theirs. -/
theorem ofChecks_put (hchecks : ∀ entry ∈ checks, entry.1 ≠ key) :
    Finding.ofChecks (ms.put key new) checks = Finding.ofChecks ms checks := by
  refine List.filterMap_congr fun entry hentry => ?_
  rw [Members.lookup_put, if_neg (hchecks entry hentry)]

theorem ofObject_without (hnull : ms.lookup key = some .null) (name : String) :
    Finding.ofObject (ms.without key) name inside = Finding.ofObject ms name inside := by
  unfold Finding.ofObject
  rw [Members.lookup_without]
  by_cases heq : name = key
  · subst heq
    rw [if_pos rfl, hnull]
    rfl
  · rw [if_neg heq]

theorem ofObject_put {inner inner' : Members} (hinner : ms.lookup key = some (.object inner))
    (hinside : inside inner' = inside inner) :
    Finding.ofObject (ms.put key (.object inner')) key inside = Finding.ofObject ms key inside := by
  unfold Finding.ofObject
  rw [Members.lookup_put, if_pos rfl, hinner]
  dsimp only
  rw [hinside]

end

theorem ofRetry_without (hnull : ms.lookup key = some .null) :
    Finding.ofRetry (ms.without key) = Finding.ofRetry ms :=
  ofChecks_without hnull (by simp [Check.flag, Check.positive, Check.natural, Check.coefficient,
    Check.optional])

theorem ofOptions_without (hnull : ms.lookup key = some .null) :
    Finding.ofOptions (ms.without key) = Finding.ofOptions ms := by
  rw [Finding.ofOptions, Finding.ofOptions, ofObject_without hnull, ofChecks_without hnull]
  simp [Check.flag, Check.positive, Check.natural, Check.optional]

theorem ofOptions_put {inner inner' : Members} (hinner : ms.lookup "retry" = some (.object inner))
    (hinside : Finding.ofRetry inner' = Finding.ofRetry inner) :
    Finding.ofOptions (ms.put "retry" (.object inner')) = Finding.ofOptions ms := by
  rw [Finding.ofOptions, Finding.ofOptions, ofObject_put hinner hinside,
    ofChecks_put (by decide)]

theorem ofNode_without (hkey : key ≠ "id" ∧ key ≠ "type") (hnull : ms.lookup key = some .null) :
    Finding.ofNode (ms.without key) = Finding.ofNode ms := by
  rw [Finding.ofNode, Finding.ofNode, ofObject_without hnull, ofChecks_without hnull]
  simp [Check.text, Check.object, Check.flag, Check.optional, hkey.1.symm, hkey.2.symm]

theorem ofNode_put {inner inner' : Members} (hinner : ms.lookup "options" = some (.object inner))
    (hinside : Finding.ofOptions inner' = Finding.ofOptions inner) :
    Finding.ofNode (ms.put "options" (.object inner')) = Finding.ofNode ms := by
  rw [Finding.ofNode, Finding.ofNode, ofObject_put hinner hinside, ofChecks_put (by decide)]

theorem ofConnection_without (hkey : key ≠ "source" ∧ key ≠ "target")
    (hnull : ms.lookup key = some .null) :
    Finding.ofConnection (ms.without key) = Finding.ofConnection ms := by
  rw [Finding.ofConnection, Finding.ofConnection, ofChecks_without hnull]
  simp [Check.label, Check.optional, hkey.1.symm, hkey.2.symm]

/-! ### Items -/

theorem nodeViolations_without (hkey : key ≠ "id" ∧ key ≠ "type")
    (hnull : ms.lookup key = some .null) :
    (nodeViolations · (.object (ms.without key))) = (nodeViolations · (.object ms)) := by
  funext index
  simp only [nodeViolations, ofNode_without hkey hnull, Members.lookup_without,
    if_neg hkey.1.symm]

theorem nodeViolations_put {inner inner' : Members}
    (hinner : ms.lookup "options" = some (.object inner))
    (hinside : Finding.ofOptions inner' = Finding.ofOptions inner) :
    (nodeViolations · (.object (ms.put "options" (.object inner')))) =
      (nodeViolations · (.object ms)) := by
  funext index
  -- The violations of a node carry its id, which the options do not touch.
  have hid : (ms.put "options" (.object inner')).lookup "id" = ms.lookup "id" := by
    rw [Members.lookup_put, if_neg (by decide)]
  simp only [nodeViolations, ofNode_put hinner hinside, hid]

theorem connectionViolations_without (hkey : key ≠ "source" ∧ key ≠ "target")
    (hnull : ms.lookup key = some .null) :
    (connectionViolations · (.object (ms.without key))) =
      (connectionViolations · (.object ms)) := by
  funext index
  simp only [connectionViolations, ofConnection_without hkey hnull]

/-- What is read off the items of a list stays when one gives way to another of which the
same is read off. -/
theorem map_getElem?_modify {α β : Type} {f : α → β} {g : α → α} {items : List α} {i j : Nat}
    {a : α} (ha : items[i]? = some a) (h : i = j → f (g a) = f a) :
    (items.modify i g)[j]?.map f = items[j]?.map f := by
  rw [List.getElem?_modify]
  by_cases hij : i = j
  · have hsame := h hij
    subst hij
    simp [ha, hsame]
  · simp [hij]

theorem itemViolations_eq (check : Nat → Json → List Violation) (items : List Json) :
    itemViolations check items = (items.mapIdx check).flatten := by
  rw [itemViolations, List.mapIdx_eq_zipIdx_map, List.flatMap_def]

/-! ### Documents -/

theorem violations_without (hkey : key ≠ "nodes") (hnull : ms.lookup key = some .null) :
    violations (.object (ms.without key)) = violations (.object ms) := by
  have hchecks : Finding.ofChecks (ms.without key) [("name", .text), ("description", .text)] =
      Finding.ofChecks ms [("name", .text), ("description", .text)] :=
    ofChecks_without hnull (by simp [Check.text, Check.optional])
  have hnodes : (ms.without key).lookup "nodes" = ms.lookup "nodes" := by
    rw [Members.lookup_without, if_neg hkey.symm]
  rw [violations, violations, hchecks, hnodes, Members.lookup_without]
  by_cases heq : "connections" = key
  · subst heq
    rw [if_pos rfl, hnull]
  · rw [if_neg heq]

theorem violations_put_nodes {items items' : List Json}
    (hitems : ms.lookup "nodes" = some (.array items))
    (hsame : itemViolations nodeViolations items' = itemViolations nodeViolations items) :
    violations (.object (ms.put "nodes" (.array items'))) = violations (.object ms) := by
  have hconnections : (ms.put "nodes" (.array items')).lookup "connections" =
      ms.lookup "connections" := by
    rw [Members.lookup_put, if_neg (by decide)]
  rw [violations, violations, ofChecks_put (by decide), hconnections, Members.lookup_put,
    if_pos rfl, hitems]
  dsimp only
  rw [hsame]

theorem violations_put_connections {items items' : List Json}
    (hitems : ms.lookup "connections" = some (.array items))
    (hsame : itemViolations connectionViolations items' =
      itemViolations connectionViolations items) :
    violations (.object (ms.put "connections" (.array items'))) = violations (.object ms) := by
  have hnodes : (ms.put "connections" (.array items')).lookup "nodes" = ms.lookup "nodes" := by
    rw [Members.lookup_put, if_neg (by decide)]
  rw [violations, violations, ofChecks_put (by decide), hnodes, Members.lookup_put,
    if_pos rfl, hitems]
  dsimp only
  rw [hsame]

theorem read_congr {ms' : Members}
    (hviolations : violations (.object ms') = violations (.object ms))
    (hpresent : presentRoot ms' = presentRoot ms) :
    Document.read (.object ms') = Document.read (.object ms) := by
  have hwithout : withoutNulls (.object ms') = withoutNulls (.object ms) :=
    congrArg Json.object hpresent
  rw [Document.read, Document.read, hviolations, hwithout]

/-! ## Changes that go unnoticed -/

section

variable {α β : Type} {report : Members → α} {inside : Members → β} {strip f : Members → Members}
  {change : String → Json → Json} {path : Path}

/-- Writing a value over another one, at a path inside an object, changes neither what is
reported of the object nor what is left of it without its null members. -/
def Unnoticed (report : Members → α) (strip : Members → Members) (path : Path)
    (old new : Json) : Prop :=
  ∀ v : Json, v.Ordered → at? path (some v) = some old →
    ∃ ms ms' : Members, v = .object ms ∧ writeAt new path v = .object ms' ∧
      report ms' = report ms ∧ strip ms' = strip ms

theorem Unnoticed.without (hstrip : Stripping strip change) (hnull : ms.lookup key = some .null)
    (hreport : report (ms.without key) = report ms) :
    Unnoticed report strip [] (.object ms) (.object (ms.without key)) := by
  intro v hv hat
  obtain rfl : v = .object ms := Option.some.inj hat
  exact ⟨ms, _, rfl, rfl, hreport, hstrip.without (Json.ordered_object.mp hv).1 hnull⟩

/-- A change that goes unnoticed in a member goes unnoticed in the object around it. -/
theorem Unnoticed.inMember (h : Unnoticed inside f path old new) (hstrip : Stripping strip change)
    (hchange : change key = inObject f)
    (hreport : ∀ {ms inner inner' : Members}, ms.lookup key = some (.object inner) →
      inside inner' = inside inner → report (ms.put key (.object inner')) = report ms) :
    Unnoticed report strip (.key key :: path) old new := by
  intro v hv hat
  obtain ⟨ms, heq, hbelow⟩ := exists_object_of_at? hat
  obtain rfl := Option.some.inj heq
  obtain ⟨w, hw⟩ : ∃ w, ms.lookup key = some w := by
    refine Option.ne_none_iff_exists'.mp fun hnone => ?_
    rw [hnone, at?_none] at hbelow
    cases hbelow
  rw [hw] at hbelow
  obtain ⟨inner, inner', rfl, hwritten, hinside, hstripped⟩ :=
    h w (Members.ordered_of_lookup hv hw) hbelow
  refine ⟨ms, ms.put key (.object inner'), rfl, ?_, hreport hw hinside, ?_⟩
  · rw [writeAt, hw, Option.getD_some, hwritten]
  · refine hstrip.put (Json.ordered_object.mp hv).1 hw rfl ?_
    rw [hchange, inObject, inObject, hstripped]

/-- A change that goes unnoticed in an item goes unnoticed in the list. -/
theorem Unnoticed.inItem {check : Nat → Json → List Violation} {items : List Json} {i : Nat}
    {w : Json} (h : Unnoticed (fun ms => (check · (.object ms))) f path old new)
    (hitem : items[i]? = some w) (hw : w.Ordered) (hat : at? path (some w) = some old) :
    itemViolations check (items.modify i (writeAt new path)) = itemViolations check items ∧
      inItems f (.array (items.modify i (writeAt new path))) = inItems f (.array items) := by
  obtain ⟨ms, ms', rfl, hwritten, hcheck, hstripped⟩ := h w hw hat
  constructor
  · rw [itemViolations_eq, itemViolations_eq]
    refine congrArg List.flatten (List.ext_getElem? fun j => ?_)
    rw [List.getElem?_mapIdx, List.getElem?_mapIdx]
    refine map_getElem?_modify hitem fun _ => ?_
    rw [hwritten]
    exact congrFun hcheck j
  · refine congrArg Json.array (List.ext_getElem? fun j => ?_)
    rw [List.getElem?_map, List.getElem?_map]
    refine map_getElem?_modify hitem fun _ => ?_
    rw [hwritten, inObject, inObject, hstripped]

/-- A change that goes unnoticed in the items of a list of the document makes no difference
to the reading. -/
theorem Unnoticed.read {check : Nat → Json → List Violation}
    (h : Unnoticed (fun ms => (check · (.object ms))) presentItem path old new)
    (hchange : rootChange key = inItems presentItem)
    (hviolations : ∀ {ms : Members} {items items' : List Json},
      ms.lookup key = some (.array items) →
      itemViolations check items' = itemViolations check items →
      violations (.object (ms.put key (.array items'))) = violations (.object ms))
    {v : Json} (hv : v.Ordered) {i : Nat}
    (hat : at? (.key key :: .index i :: path) (some v) = some old) :
    Document.read (writeAt new (.key key :: .index i :: path) v) = Document.read v := by
  obtain ⟨root, heq, hbelow⟩ := exists_object_of_at? hat
  obtain rfl := Option.some.inj heq
  obtain ⟨items, w, hitems, hitem, hinside⟩ := exists_array_of_at? hbelow
  have hlist := Members.ordered_of_lookup hv hitems
  have hw : w.Ordered := Json.ordered_array.mp hlist w (List.mem_of_getElem? hitem)
  obtain ⟨hsame, hstripped⟩ := h.inItem hitem hw hinside
  have hwritten : writeAt new (.key key :: .index i :: path) (.object root) =
      .object (root.put key (.array (items.modify i (writeAt new path)))) := by
    rw [writeAt, hitems, Option.getD_some, writeAt]
  rw [hwritten]
  refine read_congr (hviolations hitems hsame) ?_
  refine stripping_root.put (Json.ordered_object.mp hv).1 hitems rfl ?_
  rw [hchange, hstripped]

end

/-! ## Optional members -/

/-- The path of an object of the document and the name of a member that it may leave out. -/
inductive OptionalMember : Path → String → Prop
  | root {name : String} (hname : name ∈ ["name", "description", "connections"]) :
      OptionalMember [] name
  | node {name : String} (i : Nat) (hname : name ∈ ["name", "parameters", "disabled", "options"]) :
      OptionalMember [.key "nodes", .index i] name
  | options (i : Nat) (name : String) :
      OptionalMember [.key "nodes", .index i, .key "options"] name
  | retry (i : Nat) (name : String) :
      OptionalMember [.key "nodes", .index i, .key "options", .key "retry"] name
  | connection {name : String} (i : Nat) (hname : name ∈ ["sourceOutput", "targetInput"]) :
      OptionalMember [.key "connections", .index i] name

/-- A change that goes unnoticed in execution options goes unnoticed in their node. -/
theorem Unnoticed.inNode {path : Path}
    (h : Unnoticed Finding.ofOptions presentOptions path old new) :
    Unnoticed (fun node => (nodeViolations · (.object node))) presentItem
      (.key "options" :: path) old new :=
  h.inMember stripping_item (Function.update_self ..) nodeViolations_put

/-- An optional member that is null can be removed without a difference to the reading. -/
theorem read_writeAt_without {v : Json} (hv : v.Ordered) {path : Path} {name : String}
    (hmember : OptionalMember path name) (hobject : at? path (some v) = some (.object ms))
    (hnull : ms.lookup name = some .null) :
    Document.read (writeAt (.object (ms.without name)) path v) = Document.read v := by
  have hnodes : rootChange "nodes" = inItems presentItem := by
    rw [rootChange, Function.update_of_ne (by decide), Function.update_self]
  have hconnections : rootChange "connections" = inItems presentItem := Function.update_self ..
  -- From the object that holds the member outwards: each case puts together the levels above it.
  cases hmember with
  | root hname =>
      obtain rfl : v = .object ms := Option.some.inj hobject
      have hkey : name ≠ "nodes" := by
        rintro rfl
        exact absurd hname (by decide)
      exact read_congr (violations_without hkey hnull)
        (stripping_root.without (Json.ordered_object.mp hv).1 hnull)
  | node i hname =>
      have hkey : name ≠ "id" ∧ name ≠ "type" := by
        constructor <;> rintro rfl <;> exact absurd hname (by decide)
      exact (Unnoticed.without stripping_item hnull (nodeViolations_without hkey hnull)).read
        hnodes violations_put_nodes hv hobject
  | options i =>
      exact (Unnoticed.without stripping_options hnull (ofOptions_without hnull)).inNode.read
        hnodes violations_put_nodes hv hobject
  | retry i =>
      have hretry := (Unnoticed.without stripping_present hnull (ofRetry_without hnull)).inMember
        stripping_options (Function.update_self ..) ofOptions_put
      exact hretry.inNode.read hnodes violations_put_nodes hv hobject
  | connection i hname =>
      have hkey : name ≠ "source" ∧ name ≠ "target" := by
        constructor <;> rintro rfl <;> exact absurd hname (by decide)
      exact (Unnoticed.without stripping_item hnull (connectionViolations_without hkey hnull)).read
        hconnections violations_put_connections hv hobject

/-- The parameters of a node are those of its item, nulls included; an item without parameters
has none. -/
def ParametersOf (item : Json) (node : Node) : Prop :=
  ∃ ms : Members, item = .object ms ∧
    (ms.lookup "parameters" = some (.object node.parameters) ∨
      ms.Absent "parameters" ∧ node.parameters = [])

theorem parameters_of_read {v : Json} (hv : v.Ordered) {d : Definition}
    (hread : Document.read v = .ok d) :
    ∃ items, at? [.key "nodes"] (some v) = some (.array items) ∧
      List.Forall₂ ParametersOf items d.nodes := by
  obtain ⟨root, rfl, hfields⟩ := (read_eq_ok_iff hv d).mp hread
  obtain ⟨_, hitems, items, rfl, hnodes⟩ := hfields.nodes
  refine ⟨items, hitems, hnodes.imp ?_⟩
  rintro _ node ⟨ms, rfl, hnode⟩
  refine ⟨ms, rfl, ?_⟩
  rcases hnode.parameters with habsent | ⟨_, hlookup, rfl⟩
  · exact .inr habsent
  · exact .inl hlookup

/-- A null member reads as an absent one: an optional member that is null, at any level, can be
removed without a difference to the definition or to the violations.  Nulls inside parameters
are kept: the parameters that are read are those of the document.  A document that comes from a
text is ordered, by `Json.ordered_of_parse`. -/
theorem read_without_null {v : Json} (hv : v.Ordered) :
    (∀ (path : Path) (name : String) (ms : Members), OptionalMember path name →
      at? path (some v) = some (.object ms) → ms.lookup name = some .null →
      Document.read (writeAt (.object (ms.without name)) path v) = Document.read v) ∧
    ∀ d, Document.read v = .ok d →
      ∃ items, at? [.key "nodes"] (some v) = some (.array items) ∧
        List.Forall₂ ParametersOf items d.nodes :=
  ⟨fun _ _ _ hmember hobject hnull => read_writeAt_without hv hmember hobject hnull,
    fun _ hread => parameters_of_read hv hread⟩

/-- A document whose node has a null name, and a null in its parameters. -/
def namelessDocument : Json :=
  .object [("nodes", .array [.object [
    ("id", .string "a"), ("name", .null), ("parameters", .object [("kept", .null)]),
    ("type", .string "t")]])]

/-- What the document is read as. -/
def namelessDefinition : Definition where
  nodes := [{ id := "a", typeTag := "t", parameters := [("kept", .null)] }]

theorem read_without_null_namelessDocument :
    namelessDocument.Ordered ∧ Document.read namelessDocument = .ok namelessDefinition ∧
      (∃ ms : Members, at? [.key "nodes", .index 0] (some namelessDocument) = some (.object ms) ∧
        ms.lookup "name" = some .null ∧
        Document.read (writeAt (.object (ms.without "name")) [.key "nodes", .index 0]
          namelessDocument) = Document.read namelessDocument) ∧
      ∃ items, at? [.key "nodes"] (some namelessDocument) = some (.array items) ∧
        List.Forall₂ ParametersOf items namelessDefinition.nodes := by
  have hordered : namelessDocument.Ordered := by decide
  have hread : Document.read namelessDocument = .ok namelessDefinition := rfl
  obtain ⟨hwithout, hparameters⟩ := read_without_null hordered
  have hname : OptionalMember [.key "nodes", .index 0] "name" := .node 0 (by decide)
  exact ⟨hordered, hread, ⟨_, rfl, rfl, hwithout _ _ _ hname rfl rfl⟩,
    hparameters namelessDefinition hread⟩

end Document

end FlowGraph
