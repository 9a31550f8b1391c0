import FlowGraph.Proofs.Json.Ordered

/-!
# Schemas, faults and repairs

A schema says of every value inside a value which ones it accepts.  A value that
is not accepted has faults, each at a path; the faults of different members do
not depend on each other.  So writing accepted values at some faults removes
these and leaves the others as they are.

Main results:

- Theorem `accepts_iff`: a value is accepted exactly when it has no fault.
- Theorem `faultAt_writeAt`: an accepted value written at a fault removes this
  fault and no other.
- Theorem `accepts_writeAll_iff`: writing accepted values at some faults gives an
  accepted value exactly when no fault is left out.
- Theorem `Json.ordered_writeAll`: ordered values written into an ordered one
  leave it ordered.
-/

namespace FlowGraph

namespace Json

/-! ## Paths -/

/-- A step from a value to a value inside it. -/
inductive Step where
  | key (name : String)
  | index (i : Nat)
deriving DecidableEq

/-- The way from a value to a value inside it. -/
abbrev Path := List Step

/-- The value at a path, if there is one. -/
def at? : Path → Option Json → Option Json
  | [], v => v
  | .key name :: rest, some (.object ms) => at? rest (ms.lookup name)
  | .index i :: rest, some (.array items) => at? rest items[i]?
  | _ :: _, _ => none

/-- Nothing is found inside a value that is not there. -/
theorem at?_none (path : Path) : at? path none = none := by
  rcases path with _ | ⟨_ | _, _⟩ <;> rfl

/-- What is found below an index is in an array. -/
theorem exists_array_of_at? {o : Option Json} {i : Nat} {rest : Path} {v : Json}
    (h : at? (.index i :: rest) o = some v) :
    ∃ items w, o = some (.array items) ∧ items[i]? = some w ∧ at? rest (some w) = some v := by
  rcases o with _ | _ | _ | _ | _ | items | ms
  case some.array =>
    rw [at?] at h
    cases hitem : items[i]? with
    | none => simp [hitem, at?_none] at h
    | some w => exact ⟨items, w, rfl, hitem, by rwa [hitem] at h⟩
  all_goals cases h

/-- What is found below a name is in an object. -/
theorem exists_object_of_at? {o : Option Json} {name : String} {rest : Path} {v : Json}
    (h : at? (.key name :: rest) o = some v) :
    ∃ ms : Members, o = some (.object ms) ∧ at? rest (ms.lookup name) = some v := by
  rcases o with _ | _ | _ | _ | _ | items | ms
  case some.object => exact ⟨ms, rfl, h⟩
  all_goals cases h

/-- Write a value at a path; a member that is missing is added. -/
def writeAt (new : Json) : Path → Json → Json
  | [], _ => new
  | .key name :: rest, .object ms =>
    .object (Members.put name (writeAt new rest ((ms.lookup name).getD .null)) ms)
  | .index i :: rest, .array items => .array (items.modify i (writeAt new rest))
  | _ :: _, v => v

/-- Write values at several paths in turn. -/
def writeAll (values : Path → Json) (paths : List Path) (v : Json) : Json :=
  paths.foldl (fun v path => writeAt (values path) path v) v

/-- Ordered values written into an ordered one leave it ordered. -/
theorem ordered_writeAt {new : Json} (hnew : new.Ordered) {path : Path} {v : Json}
    (hv : v.Ordered) : (writeAt new path v).Ordered := by
  induction path generalizing v with
  | nil => exact hnew
  | cons step rest ih =>
      cases step with
      | key name =>
          cases v with
          | object ms =>
              obtain ⟨hms, hmembers⟩ := ordered_object.mp hv
              refine ordered_object.mpr ⟨Members.ordered_put hms _ _, fun m hm => ?_⟩
              rcases Members.mem_put hm with rfl | hm
              · refine ih ?_
                cases hold : ms.lookup name with
                | none => trivial
                | some old => exact hmembers _ ((Members.lookup_eq_some_iff hms).mp hold)
              · exact hmembers m hm
          | _ => exact hv
      | index i =>
          cases v with
          | array items =>
              refine ordered_array.mpr fun w hw => ?_
              obtain ⟨j, hj⟩ := List.mem_iff_getElem?.mp hw
              rw [List.getElem?_modify] at hj
              obtain ⟨old, hold, rfl⟩ := Option.map_eq_some_iff.mp hj
              have hitem := ordered_array.mp hv old (List.mem_of_getElem? hold)
              split
              · exact ih hitem
              · exact hitem
          | _ => exact hv

theorem ordered_writeAll {values : Path → Json} {paths : List Path}
    (hvalues : ∀ path ∈ paths, (values path).Ordered) {v : Json} (hv : v.Ordered) :
    (writeAll values paths v).Ordered := by
  induction paths generalizing v with
  | nil => exact hv
  | cons path rest ih =>
      obtain ⟨hvalue, hrest⟩ := List.forall_mem_cons.mp hvalues
      exact ih hrest (ordered_writeAt hvalue hv)

/-- A write below a value does not make it null. -/
theorem writeAt_cons_ne_null (new : Json) (step : Step) (rest : Path) {v : Json} (hv : v ≠ .null) :
    writeAt new (step :: rest) v ≠ .null := by
  cases step <;> cases v <;> simp_all [writeAt]

end Json

open Json (Path writeAt writeAll)

/-- Which values are accepted, at every depth. -/
inductive Schema where
  /-- Any value, or none. -/
  | anything
  /-- A value of some kind. -/
  | value (kind : Json → Prop)
  /-- An object; every name has a schema for its member. -/
  | object (members : String → Schema)
  /-- An array of items of one schema. -/
  | array (item : Schema)
  /-- A member that may also be missing or null. -/
  | optional (schema : Schema)

namespace Schema

/-- Whether a member, or its absence, is accepted. -/
def Accepts : Schema → Option Json → Prop
  | .anything, _ => True
  | .value kind, o => ∃ v, o = some v ∧ kind v
  | .object members, o =>
    ∃ ms : Members, o = some (.object ms) ∧ ∀ name, (members name).Accepts (ms.lookup name)
  | .array item, o => ∃ items, o = some (.array items) ∧ ∀ v ∈ items, item.Accepts (some v)
  | .optional schema, o => o = none ∨ o = some .null ∨ schema.Accepts o

/-- Whether a member is wrong at a path: there the kind of value that the schema
wants is missing. -/
def FaultAt : Schema → Option Json → Path → Prop
  | .anything, _, _ => False
  | .value kind, o, path => path = [] ∧ ∀ v, o = some v → ¬ kind v
  | .object members, o, path =>
    match o with
    | some (.object ms) =>
      ∃ name rest, path = .key name :: rest ∧ (members name).FaultAt (ms.lookup name) rest
    | _ => path = []
  | .array item, o, path =>
    match o with
    | some (.array items) =>
      ∃ i rest v, path = .index i :: rest ∧ items[i]? = some v ∧ item.FaultAt (some v) rest
    | _ => path = []
  | .optional schema, o, path => o ≠ none ∧ o ≠ some .null ∧ schema.FaultAt o path

/-- The schema of the values at a path. -/
def inside : Schema → Path → Schema
  | s, [] => s
  | .object members, .key name :: rest => (members name).inside rest
  | .array item, .index _ :: rest => item.inside rest
  | .optional schema, step :: rest => schema.inside (step :: rest)
  | _, _ => .anything

variable {s : Schema} {o : Option Json} {path : Path}

/-! ## Faults -/

/-- What is not an object has a fault of its own only. -/
theorem faultAt_object_of_ne {members : String → Schema} (ho : ∀ ms, o ≠ some (.object ms)) :
    (object members).FaultAt o path ↔ path = [] := by
  rw [FaultAt]
  exact ho

/-- What is not an array has a fault of its own only. -/
theorem faultAt_array_of_ne {item : Schema} (ho : ∀ items, o ≠ some (.array items)) :
    (array item).FaultAt o path ↔ path = [] := by
  rw [FaultAt]
  exact ho

/-- A value is accepted exactly when it has no fault. -/
theorem accepts_iff (s : Schema) (o : Option Json) : s.Accepts o ↔ ∀ path, ¬ s.FaultAt o path := by
  induction s generalizing o with
  | anything => simp [Accepts, FaultAt]
  | value kind => simp [Accepts, FaultAt]
  | object members ih =>
      by_cases ho : ∃ ms, o = some (.object ms)
      · obtain ⟨ms, rfl⟩ := ho
        simp only [Accepts, FaultAt, Option.some.injEq, Json.object.injEq, exists_eq_left', ih]
        constructor
        · rintro h _ ⟨name, rest, rfl, hfault⟩
          exact h name rest hfault
        · exact fun h name rest hfault => h _ ⟨name, rest, rfl, hfault⟩
      · have hne : ∀ ms, o ≠ some (.object ms) := fun ms heq => ho ⟨ms, heq⟩
        simp only [Accepts, hne, false_and, exists_false, faultAt_object_of_ne hne, false_iff]
        exact fun h => h [] rfl
  | array item ih =>
      by_cases ho : ∃ items, o = some (.array items)
      · obtain ⟨items, rfl⟩ := ho
        simp only [Accepts, FaultAt, Option.some.injEq, Json.array.injEq, exists_eq_left', ih]
        constructor
        · rintro h _ ⟨i, rest, v, rfl, hv, hfault⟩
          exact h v (List.mem_of_getElem? hv) rest hfault
        · intro h v hv rest hfault
          obtain ⟨i, hi⟩ := List.mem_iff_getElem?.mp hv
          exact h _ ⟨i, rest, v, rfl, hi, hfault⟩
      · have hne : ∀ items, o ≠ some (.array items) := fun items heq => ho ⟨items, heq⟩
        simp only [Accepts, hne, false_and, exists_false, faultAt_array_of_ne hne, false_iff]
        exact fun h => h [] rfl
  | optional schema ih =>
      simp only [Accepts, FaultAt, ih]
      by_cases hnone : o = none
      · simp [hnone]
      · by_cases hnull : o = some .null
        · simp [hnull]
        · simp [hnone, hnull]

/-- A member that is wrong itself has no faults inside. -/
theorem eq_nil_of_faultAt_nil (hself : s.FaultAt o []) (hfault : s.FaultAt o path) :
    path = [] := by
  induction s generalizing o with
  | anything => exact hself.elim
  | value kind => exact hfault.1
  | object members ih =>
      by_cases ho : ∃ ms, o = some (.object ms)
      · obtain ⟨ms, rfl⟩ := ho
        obtain ⟨name, rest, heq, -⟩ := hself
        cases heq
      · exact (faultAt_object_of_ne fun ms heq => ho ⟨ms, heq⟩).mp hfault
  | array item ih =>
      by_cases ho : ∃ items, o = some (.array items)
      · obtain ⟨items, rfl⟩ := ho
        obtain ⟨i, rest, v, heq, -⟩ := hself
        cases heq
      · exact (faultAt_array_of_ne fun items heq => ho ⟨items, heq⟩).mp hfault
  | optional schema ih => exact ih hself.2.2 hfault.2.2

/-! ## Repairs -/

/-- An accepted value written over a wrong one has no fault. -/
theorem faultAt_writeAt_nil {new : Json} (hfault : s.FaultAt o []) (hnew : s.Accepts (some new))
    (other : Path) : s.FaultAt (some new) other ↔ s.FaultAt o other ∧ other ≠ [] := by
  have hnone := (accepts_iff s (some new)).mp hnew other
  constructor
  · exact fun h => absurd h hnone
  · exact fun h => absurd (eq_nil_of_faultAt_nil hfault h.1) h.2

/-- A fault removed below a member is the only one removed from the object. -/
theorem faultAt_writeAt_key {members : String → Schema} {ms : Members} {new : Json}
    {name : String} {rest : Path}
    (hmember : ∀ rest', (members name).FaultAt
        (some (writeAt new rest ((ms.lookup name).getD .null))) rest' ↔
      (members name).FaultAt (ms.lookup name) rest' ∧ rest' ≠ rest) (other : Path) :
    (object members).FaultAt (some (writeAt new (.key name :: rest) (.object ms))) other ↔
      (object members).FaultAt (some (.object ms)) other ∧ other ≠ .key name :: rest := by
  simp only [writeAt, FaultAt, Members.lookup_put]
  constructor
  · rintro ⟨name', rest', rfl, hother⟩
    split at hother
    next heq =>
      subst heq
      obtain ⟨hold, hne⟩ := (hmember rest').mp hother
      exact ⟨⟨_, _, rfl, hold⟩, fun heq => hne (List.cons.inj heq).2⟩
    next hne =>
      exact ⟨⟨_, _, rfl, hother⟩, fun heq => hne (Json.Step.key.inj (List.cons.inj heq).1)⟩
  · rintro ⟨⟨name', rest', rfl, hother⟩, hne⟩
    refine ⟨_, _, rfl, ?_⟩
    split
    next heq =>
      subst heq
      exact (hmember rest').mpr ⟨hother, fun heq => hne (heq ▸ rfl)⟩
    next => exact hother

/-- A fault removed below an item is the only one removed from the array. -/
theorem faultAt_writeAt_index {item : Schema} {items : List Json} {new v : Json} {i : Nat}
    {rest : Path} (hv : items[i]? = some v)
    (hitem : ∀ rest', item.FaultAt (some (writeAt new rest v)) rest' ↔
      item.FaultAt (some v) rest' ∧ rest' ≠ rest) (other : Path) :
    (array item).FaultAt (some (writeAt new (.index i :: rest) (.array items))) other ↔
      (array item).FaultAt (some (.array items)) other ∧ other ≠ .index i :: rest := by
  simp only [writeAt, FaultAt, List.getElem?_modify]
  constructor
  · rintro ⟨j, rest', w, rfl, hw, hother⟩
    obtain ⟨old, hold, rfl⟩ := Option.map_eq_some_iff.mp hw
    split at hother
    next heq =>
      subst heq
      obtain rfl := Option.some.inj (hv.symm.trans hold)
      obtain ⟨hfault, hne⟩ := (hitem rest').mp hother
      exact ⟨⟨_, _, _, rfl, hold, hfault⟩, fun heq => hne (List.cons.inj heq).2⟩
    next hne =>
      exact ⟨⟨_, _, _, rfl, hold, hother⟩,
        fun heq => hne (Json.Step.index.inj (List.cons.inj heq).1).symm⟩
  · rintro ⟨⟨j, rest', w, rfl, hw, hother⟩, hne⟩
    refine ⟨_, _, _, rfl, by rw [hw]; rfl, ?_⟩
    split
    next heq =>
      subst heq
      obtain rfl := Option.some.inj (hv.symm.trans hw)
      exact (hitem rest').mpr ⟨hother, fun heq => hne (heq ▸ rfl)⟩
    next => exact hother

/-- An accepted value written at a fault removes this fault and no other. -/
theorem faultAt_writeAt {new : Json} (hfault : s.FaultAt o path)
    (hnew : (s.inside path).Accepts (some new)) (other : Path) :
    s.FaultAt (some (writeAt new path (o.getD .null))) other ↔
      s.FaultAt o other ∧ other ≠ path := by
  induction s generalizing o path other with
  | anything => exact hfault.elim
  | value kind =>
      obtain rfl := hfault.1
      exact faultAt_writeAt_nil hfault hnew other
  | object members ih =>
      by_cases ho : ∃ ms, o = some (.object ms)
      · obtain ⟨ms, rfl⟩ := ho
        obtain ⟨name, rest, rfl, hbelow⟩ := hfault
        exact faultAt_writeAt_key (ih name hbelow hnew) other
      · obtain rfl := (faultAt_object_of_ne fun ms heq => ho ⟨ms, heq⟩).mp hfault
        exact faultAt_writeAt_nil hfault hnew other
  | array item ih =>
      by_cases ho : ∃ items, o = some (.array items)
      · obtain ⟨items, rfl⟩ := ho
        obtain ⟨i, rest, v, rfl, hv, hbelow⟩ := hfault
        exact faultAt_writeAt_index hv (ih hbelow hnew) other
      · obtain rfl := (faultAt_array_of_ne fun items heq => ho ⟨items, heq⟩).mp hfault
        exact faultAt_writeAt_nil hfault hnew other
  | optional schema ih =>
      rcases path with _ | ⟨step, rest⟩
      · exact faultAt_writeAt_nil hfault hnew other
      · obtain ⟨hnone, hnull, hinside⟩ := hfault
        obtain ⟨v, rfl⟩ := Option.ne_none_iff_exists'.mp hnone
        have hnotNull : v ≠ .null := fun heq => hnull (congrArg some heq)
        have hwritten := Json.writeAt_cons_ne_null new step rest hnotNull
        rw [inside] at hnew
        have hbelow := ih hinside hnew other
        simp_all [FaultAt]

/-- Accepted values written at different faults remove these and no others. -/
theorem faultAt_writeAll {values : Path → Json} {paths : List Path} {v : Json}
    (hnodup : paths.Nodup) (hfaults : ∀ path ∈ paths, s.FaultAt (some v) path)
    (hvalues : ∀ path ∈ paths, (s.inside path).Accepts (some (values path))) (other : Path) :
    s.FaultAt (some (writeAll values paths v)) other ↔
      s.FaultAt (some v) other ∧ other ∉ paths := by
  induction paths generalizing v with
  | nil => simp [writeAll]
  | cons path rest ih =>
      obtain ⟨hfault, hrest⟩ := List.forall_mem_cons.mp hfaults
      obtain ⟨hvalue, hvalues⟩ := List.forall_mem_cons.mp hvalues
      obtain ⟨hnew, hnodup⟩ := List.nodup_cons.mp hnodup
      have hstep := faultAt_writeAt hfault hvalue
      have hleft : ∀ path' ∈ rest, s.FaultAt (some (writeAt (values path) path v)) path' :=
        fun path' hpath' => (hstep path').mpr
          ⟨hrest path' hpath', fun heq => hnew (heq ▸ hpath')⟩
      rw [List.mem_cons, not_or, ← and_assoc, ← hstep other]
      exact ih hnodup hleft hvalues

/-- Writing accepted values at some faults gives an accepted value exactly when no
fault is left out. -/
theorem accepts_writeAll_iff {values : Path → Json} {paths : List Path} {v : Json}
    (hnodup : paths.Nodup) (hfaults : ∀ path ∈ paths, s.FaultAt (some v) path)
    (hvalues : ∀ path ∈ paths, (s.inside path).Accepts (some (values path))) :
    s.Accepts (some (writeAll values paths v)) ↔
      ∀ path, s.FaultAt (some v) path → path ∈ paths := by
  rw [accepts_iff]
  simp only [faultAt_writeAll hnodup hfaults hvalues, not_and, Classical.not_not]

/-! ## Records -/

/-- An object with a table of its members; members of other names are left as they
are. -/
def record (entries : List (String × Schema)) : Schema :=
  .object fun name => (entries.lookup name).getD .anything

section

variable {entries : List (String × Schema)} {ms : Members}

/-- The faults of a record are those of the members in its table. -/
theorem faultAt_record (hnames : (entries.map Prod.fst).Nodup) (path : Path) :
    (record entries).FaultAt (some (.object ms)) path ↔
      ∃ entry ∈ entries, ∃ rest, path = .key entry.1 :: rest ∧
        entry.2.FaultAt (ms.lookup entry.1) rest := by
  simp only [record, FaultAt]
  constructor
  · rintro ⟨name, rest, rfl, hfault⟩
    cases hfound : entries.lookup name with
    | none =>
        rw [hfound] at hfault
        exact hfault.elim
    | some schema =>
        rw [hfound] at hfault
        exact ⟨(name, schema), (lookup_eq_some_iff_of_nodup hnames).mp hfound, rest, rfl, hfault⟩
  · rintro ⟨⟨name, schema⟩, hentry, rest, rfl, hfault⟩
    refine ⟨name, rest, rfl, ?_⟩
    rwa [(lookup_eq_some_iff_of_nodup hnames).mpr hentry]

/-- A record is accepted when the members in its table are. -/
theorem accepts_record (hnames : (entries.map Prod.fst).Nodup) (o : Option Json) :
    (record entries).Accepts o ↔
      ∃ ms : Members, o = some (.object ms) ∧
        ∀ entry ∈ entries, entry.2.Accepts (ms.lookup entry.1) := by
  simp only [record, Accepts]
  refine exists_congr fun ms => and_congr_right fun _ => ?_
  constructor
  · rintro h ⟨name, schema⟩ hentry
    have haccepts := h name
    rwa [(lookup_eq_some_iff_of_nodup hnames).mpr hentry] at haccepts
  · intro h name
    cases hfound : entries.lookup name with
    | none => trivial
    | some schema => exact h (name, schema) ((lookup_eq_some_iff_of_nodup hnames).mp hfound)

end

end Schema

end FlowGraph
