import FlowGraph.Proofs.Document.Member
import FlowGraph.Proofs.Json.Schema

/-!
# The schema of workflow documents

The grammar of documents as one schema, with the kind of `maximumAttempts` left
open: the grammar wants a positive 32-bit integer there, while the check of a
single member lets every positive 64-bit integer pass.  The two schemas have the
same faults except at the integers in between.

Main results:

- Theorem `accepts_grammar_iff`: the schema of the grammar accepts exactly the
  documents of the grammar.
- Theorem `overlooks_document`: the faults that the checks overlook are the
  numbers of attempts that 32 bits do not hold.
-/

namespace FlowGraph.Document

open Json (Path at? at?_none exists_array_of_at? exists_object_of_at?)
open Schema (record)

/-! ## The tables -/

section

variable (attempts : Json → Prop)

/-- The schema of a retry policy. -/
def retrySchema : Schema :=
  record [
    ("enabled", .optional (.value Spelling.flag.Accepts)),
    ("maximumAttempts", .optional (.value attempts)),
    ("initialInterval", .optional (.value Spelling.natural.Accepts)),
    ("maximumInterval", .optional (.value Spelling.natural.Accepts)),
    ("backoffCoefficient", .optional (.value Spelling.coefficient.Accepts))]

/-- The schema of execution options. -/
def optionsSchema : Schema :=
  record [
    ("startToCloseTimeout", .optional (.value Spelling.positive.Accepts)),
    ("scheduleToCloseTimeout", .optional (.value Spelling.natural.Accepts)),
    ("heartbeatTimeout", .optional (.value Spelling.natural.Accepts)),
    ("continueOnFail", .optional (.value Spelling.flag.Accepts)),
    ("retry", .optional (retrySchema attempts))]

/-- The schema of a node. -/
def nodeSchema : Schema :=
  record [
    ("id", .value Spelling.visible.Accepts),
    ("type", .value Spelling.visible.Accepts),
    ("name", .optional (.value Spelling.text.Accepts)),
    ("parameters", .optional (.value Spelling.members.Accepts)),
    ("disabled", .optional (.value Spelling.flag.Accepts)),
    ("options", .optional (optionsSchema attempts))]

/-- The schema of a connection. -/
def connectionSchema : Schema :=
  record [
    ("source", .value Spelling.visible.Accepts),
    ("target", .value Spelling.visible.Accepts),
    ("sourceOutput", .optional (.value Spelling.label.Accepts)),
    ("targetInput", .optional (.value Spelling.label.Accepts))]

/-- The schema of a document. -/
def documentSchema : Schema :=
  record [
    ("name", .optional (.value Spelling.text.Accepts)),
    ("description", .optional (.value Spelling.text.Accepts)),
    ("nodes", .array (nodeSchema attempts)),
    ("connections", .optional (.array connectionSchema))]

end

/-- The schema of the grammar. -/
def grammarSchema : Schema := documentSchema Spelling.attempts.Accepts

/-- The schema that the checks of single members follow. -/
def checkedSchema : Schema := documentSchema Spelling.positive.Accepts

/-! ## The schema and the grammar -/

section

variable {entries : List (String × Schema)} {inside : Members → Prop} {item : Schema}
  {kind : Json → Prop} {ms : Members} {key : String}

theorem accepts_value_iff : (Schema.value kind).Accepts (ms.lookup key) ↔ ms.Requires key kind :=
  Iff.rfl

theorem accepts_optional_iff {schema : Schema}
    (h : ∀ o, schema.Accepts o ↔ ∃ v, o = some v ∧ kind v) :
    (Schema.optional schema).Accepts (ms.lookup key) ↔ ms.Allows key kind := by
  simp only [Schema.Accepts, h, Members.Allows, Members.Absent, or_assoc]
  rfl

theorem accepts_optional_value_iff :
    (Schema.optional (.value kind)).Accepts (ms.lookup key) ↔ ms.Allows key kind :=
  accepts_optional_iff fun _ => Iff.rfl

/-- A table and a list of conditions on members describe the same objects. -/
theorem accepts_record_iff (hnames : (entries.map Prod.fst).Nodup)
    (h : ∀ ms : Members, (∀ entry ∈ entries, entry.2.Accepts (ms.lookup entry.1)) ↔ inside ms)
    (o : Option Json) : (record entries).Accepts o ↔ ∃ v, o = some v ∧ Json.ObjectOf inside v := by
  simp only [Schema.accepts_record hnames, h, Json.ObjectOf]
  constructor
  · rintro ⟨ms, rfl, hinside⟩
    exact ⟨_, rfl, ms, rfl, hinside⟩
  · rintro ⟨_, rfl, ms, rfl, hinside⟩
    exact ⟨ms, rfl, hinside⟩

theorem accepts_array_iff (h : ∀ o, item.Accepts o ↔ ∃ v, o = some v ∧ kind v)
    (o : Option Json) : (Schema.array item).Accepts o ↔ ∃ v, o = some v ∧ Json.ArrayOf kind v := by
  simp only [Schema.Accepts, h, Option.some.injEq, exists_eq_left', Json.ArrayOf]
  constructor
  · rintro ⟨items, rfl, hitems⟩
    exact ⟨_, rfl, items, rfl, hitems⟩
  · rintro ⟨_, rfl, items, rfl, hitems⟩
    exact ⟨items, rfl, hitems⟩

end

theorem accepts_retry_iff (o : Option Json) :
    (retrySchema Spelling.attempts.Accepts).Accepts o ↔
      ∃ v, o = some v ∧ Json.ObjectOf RetryPolicy.Shape v := by
  refine accepts_record_iff (by decide) (fun ms => ?_) o
  simp only [List.forall_mem_cons, List.not_mem_nil, false_imp_iff, implies_true, and_true,
    accepts_optional_value_iff]
  exact ⟨fun ⟨h₁, h₂, h₃, h₄, h₅⟩ => ⟨h₁, h₂, h₃, h₄, h₅⟩,
    fun ⟨h₁, h₂, h₃, h₄, h₅⟩ => ⟨h₁, h₂, h₃, h₄, h₅⟩⟩

theorem accepts_options_iff (o : Option Json) :
    (optionsSchema Spelling.attempts.Accepts).Accepts o ↔
      ∃ v, o = some v ∧ Json.ObjectOf ActivityOptions.Shape v := by
  refine accepts_record_iff (by decide) (fun ms => ?_) o
  simp only [List.forall_mem_cons, List.not_mem_nil, false_imp_iff, implies_true, and_true,
    accepts_optional_value_iff, accepts_optional_iff accepts_retry_iff]
  exact ⟨fun ⟨h₁, h₂, h₃, h₄, h₅⟩ => ⟨h₁, h₂, h₃, h₄, h₅⟩,
    fun ⟨h₁, h₂, h₃, h₄, h₅⟩ => ⟨h₁, h₂, h₃, h₄, h₅⟩⟩

theorem accepts_node_iff (o : Option Json) :
    (nodeSchema Spelling.attempts.Accepts).Accepts o ↔
      ∃ v, o = some v ∧ Json.ObjectOf Node.Shape v := by
  refine accepts_record_iff (by decide) (fun ms => ?_) o
  simp only [List.forall_mem_cons, List.not_mem_nil, false_imp_iff, implies_true, and_true,
    accepts_value_iff, accepts_optional_value_iff, accepts_optional_iff accepts_options_iff]
  exact ⟨fun ⟨h₁, h₂, h₃, h₄, h₅, h₆⟩ => ⟨h₁, h₂, h₃, h₄, h₅, h₆⟩,
    fun ⟨h₁, h₂, h₃, h₄, h₅, h₆⟩ => ⟨h₁, h₂, h₃, h₄, h₅, h₆⟩⟩

theorem accepts_connection_iff (o : Option Json) :
    connectionSchema.Accepts o ↔ ∃ v, o = some v ∧ Json.ObjectOf Connection.Shape v := by
  refine accepts_record_iff (by decide) (fun ms => ?_) o
  simp only [List.forall_mem_cons, List.not_mem_nil, false_imp_iff, implies_true, and_true,
    accepts_value_iff, accepts_optional_value_iff]
  exact ⟨fun ⟨h₁, h₂, h₃, h₄⟩ => ⟨h₁, h₂, h₃, h₄⟩, fun ⟨h₁, h₂, h₃, h₄⟩ => ⟨h₁, h₂, h₃, h₄⟩⟩

/-- The schema of the grammar accepts exactly the documents of the grammar. -/
theorem accepts_grammar_iff (v : Json) : grammarSchema.Accepts (some v) ↔ WellShaped v := by
  have hdocument (o : Option Json) :
      grammarSchema.Accepts o ↔ ∃ v, o = some v ∧ Json.ObjectOf Definition.Shape v := by
    refine accepts_record_iff (by decide) (fun ms => ?_) o
    simp only [List.forall_mem_cons, List.not_mem_nil, false_imp_iff, implies_true, and_true,
      accepts_optional_value_iff, accepts_optional_iff (accepts_array_iff accepts_connection_iff)]
    have hnodes : (Schema.array (nodeSchema Spelling.attempts.Accepts)).Accepts
        (ms.lookup "nodes") ↔ ms.Requires "nodes" (Json.ArrayOf (Json.ObjectOf Node.Shape)) :=
      accepts_array_iff accepts_node_iff _
    rw [hnodes]
    exact ⟨fun ⟨h₁, h₂, h₃, h₄⟩ => ⟨h₁, h₂, h₃, h₄⟩, fun ⟨h₁, h₂, h₃, h₄⟩ => ⟨h₁, h₂, h₃, h₄⟩⟩
  rw [hdocument, WellShaped]
  simp

/-! ## What the checks overlook -/

/-- One of some places holds a number of attempts that 32 bits do not hold. -/
def TooMany (places : Path → Prop) (o : Option Json) (path : Path) : Prop :=
  places path ∧ ∃ n, at? path o = some (.ofUInt64 n) ∧ UInt32.size ≤ n.toNat

/-- A loose schema overlooks, of the faults of a strict one, just the numbers that
are too large at some places. -/
structure Overlooks (places : Path → Prop) (loose strict : Schema) : Prop where
  fault : ∀ o path, TooMany places o path → strict.FaultAt o path
  others : ∀ o path, loose.FaultAt o path ↔ strict.FaultAt o path ∧ ¬ TooMany places o path

theorem ofUInt64_injective {m n : UInt64} (h : Json.ofUInt64 m = .ofUInt64 n) : m = n := by
  have hwords := congrArg Json.uint64? h
  rw [uint64?_ofUInt64, uint64?_ofUInt64] at hwords
  exact Option.some.inj hwords

/-- The positive integers that 32 bits hold are the numbers of attempts. -/
theorem attempts_accepts_iff (v : Json) :
    Spelling.attempts.Accepts v ↔
      Spelling.positive.Accepts v ∧ ∀ n, v = .ofUInt64 n → n.toNat < UInt32.size := by
  have hone (x : UInt32) : 1 ≤ x.toUInt64 ↔ 1 ≤ x := by
    rw [UInt64.le_iff_toNat_le, UInt32.le_iff_toNat_le, UInt32.toNat_toUInt64]
    rfl
  constructor
  · rintro ⟨x, rfl, hx⟩
    refine ⟨⟨_, rfl, (hone x).mpr hx⟩, fun n hn => ?_⟩
    rw [← ofUInt64_injective hn, UInt32.toNat_toUInt64]
    exact x.toNat_lt_size
  · rintro ⟨⟨n, rfl, hn⟩, hfits⟩
    have hword : (UInt32.ofNat n.toNat).toUInt64 = n := by
      rw [← UInt64.toNat_inj, UInt32.toNat_toUInt64, UInt32.toNat_ofNat_of_lt' (hfits n rfl)]
    exact ⟨UInt32.ofNat n.toNat, by rw [hword], (hone _).mp (by rwa [hword])⟩

theorem overlooks_attempts :
    Overlooks (· = []) (.value Spelling.positive.Accepts) (.value Spelling.attempts.Accepts) where
  fault := by
    rintro o _ ⟨rfl, n, hn, hsize⟩
    refine ⟨rfl, fun v hv haccepts => ?_⟩
    obtain rfl := Option.some.inj (hn.symm.trans hv)
    exact Nat.not_lt.mpr hsize (((attempts_accepts_iff _).mp haccepts).2 n rfl)
  others := by
    intro o path
    simp only [Schema.FaultAt, TooMany, attempts_accepts_iff, and_assoc]
    refine and_congr_right fun hpath => ?_
    subst hpath
    constructor
    · intro hfault
      refine ⟨fun v hv h => hfault v hv h.1, ?_⟩
      rintro ⟨-, n, hn, hsize⟩
      refine hfault _ hn ⟨n, rfl, ?_⟩
      rw [UInt64.le_iff_toNat_le]
      exact Nat.le_trans (by decide) hsize
    · rintro ⟨hfault, hfew⟩ v rfl hpositive
      refine hfault v rfl ⟨hpositive, ?_⟩
      rintro n rfl
      exact Nat.not_le.mp fun hsize => hfew ⟨rfl, n, rfl, hsize⟩

variable {places : Path → Prop} {loose strict : Schema}

theorem Overlooks.congr {places' : Path → Prop} (h : Overlooks places loose strict)
    (hplaces : ∀ path, places path ↔ places' path) : Overlooks places' loose strict := by
  obtain rfl : places = places' := funext fun path => propext (hplaces path)
  exact h

theorem at?_null_ne (path : Path) (n : UInt64) : at? path (some .null) ≠ some (.ofUInt64 n) := by
  rcases path with _ | ⟨_ | _, _⟩ <;> rintro ⟨⟩

theorem Overlooks.optional (h : Overlooks places loose strict) :
    Overlooks places (.optional loose) (.optional strict) where
  fault := by
    rintro o path htoo
    obtain ⟨-, n, hn, -⟩ := id htoo
    refine ⟨?_, ?_, h.fault o path htoo⟩ <;> rintro rfl
    · simp [at?_none] at hn
    · exact at?_null_ne path n hn
  others o path := by simp only [Schema.FaultAt, h.others, and_assoc]

theorem Overlooks.array (h : Overlooks places loose strict) :
    Overlooks (fun path => ∃ i rest, path = .index i :: rest ∧ places rest) (.array loose)
      (.array strict) where
  fault := by
    rintro o _ ⟨⟨i, rest, rfl, hplaces⟩, n, hn, hsize⟩
    obtain ⟨items, v, rfl, hitem, hn⟩ := exists_array_of_at? hn
    exact ⟨i, rest, v, rfl, hitem, h.fault _ _ ⟨hplaces, n, hn, hsize⟩⟩
  others := by
    intro o path
    by_cases ho : ∃ items, o = some (.array items)
    · obtain ⟨items, rfl⟩ := ho
      simp only [Schema.FaultAt, h.others]
      constructor
      · rintro ⟨i, rest, v, rfl, hv, hfault, hfew⟩
        refine ⟨⟨i, rest, v, rfl, hv, hfault⟩, ?_⟩
        rintro ⟨⟨_, _, heq, hplaces⟩, n, hn, hsize⟩
        obtain ⟨-, rfl⟩ := List.cons.inj heq
        rw [at?, hv] at hn
        exact hfew ⟨hplaces, n, hn, hsize⟩
      · rintro ⟨⟨i, rest, v, rfl, hv, hfault⟩, hfew⟩
        refine ⟨i, rest, v, rfl, hv, hfault, ?_⟩
        rintro ⟨hplaces, n, hn, hsize⟩
        exact hfew ⟨⟨i, rest, rfl, hplaces⟩, n, by rwa [at?, hv], hsize⟩
    · have hne : ∀ items, o ≠ some (.array items) := fun items heq => ho ⟨items, heq⟩
      rw [Schema.faultAt_array_of_ne hne, Schema.faultAt_array_of_ne hne]
      refine ⟨fun hpath => ⟨hpath, ?_⟩, fun hfault => hfault.1⟩
      rintro ⟨⟨i, rest, rfl, -⟩, -⟩
      cases hpath

theorem Overlooks.object {members members' : String → Schema} (name : String)
    (h : Overlooks places (members name) (members' name))
    (hothers : ∀ other, (other == name) = false → members other = members' other) :
    Overlooks (fun path => ∃ rest, path = .key name :: rest ∧ places rest) (.object members)
      (.object members') where
  fault := by
    rintro o _ ⟨⟨rest, rfl, hplaces⟩, n, hn, hsize⟩
    obtain ⟨ms, rfl, hn⟩ := exists_object_of_at? hn
    exact ⟨name, rest, rfl, h.fault _ _ ⟨hplaces, n, hn, hsize⟩⟩
  others := by
    intro o path
    by_cases ho : ∃ ms, o = some (.object ms)
    · obtain ⟨ms, rfl⟩ := ho
      simp only [Schema.FaultAt]
      constructor
      · rintro ⟨other, rest, rfl, hfault⟩
        by_cases hother : other = name
        · subst hother
          obtain ⟨hfault, hfew⟩ := (h.others _ _).mp hfault
          refine ⟨⟨other, rest, rfl, hfault⟩, ?_⟩
          rintro ⟨⟨_, heq, hplaces⟩, n, hn, hsize⟩
          obtain ⟨-, rfl⟩ := List.cons.inj heq
          exact hfew ⟨hplaces, n, hn, hsize⟩
        · have hsame := hothers other (beq_eq_false_iff_ne.mpr hother)
          refine ⟨⟨other, rest, rfl, hsame ▸ hfault⟩, ?_⟩
          rintro ⟨⟨_, heq, -⟩, -⟩
          exact hother (Json.Step.key.inj (List.cons.inj heq).1)
      · rintro ⟨⟨other, rest, rfl, hfault⟩, hfew⟩
        refine ⟨other, rest, rfl, ?_⟩
        by_cases hother : other = name
        · subst hother
          refine (h.others _ _).mpr ⟨hfault, ?_⟩
          rintro ⟨hplaces, n, hn, hsize⟩
          exact hfew ⟨⟨rest, rfl, hplaces⟩, n, hn, hsize⟩
        · rwa [hothers other (beq_eq_false_iff_ne.mpr hother)]
    · have hne : ∀ ms, o ≠ some (.object ms) := fun ms heq => ho ⟨ms, heq⟩
      rw [Schema.faultAt_object_of_ne hne, Schema.faultAt_object_of_ne hne]
      refine ⟨fun hpath => ⟨hpath, ?_⟩, fun hfault => hfault.1⟩
      rintro ⟨⟨rest, rfl, -⟩, -⟩
      cases hpath

/-- The path of the number of attempts of the node at an index. -/
def attemptsPath (index : Nat) : Path :=
  [.key "nodes", .index index, .key "options", .key "retry", .key "maximumAttempts"]

/-- The faults that the checks overlook are the numbers of attempts that 32 bits
do not hold. -/
theorem overlooks_document :
    Overlooks (fun path => ∃ index, path = attemptsPath index) checkedSchema grammarSchema := by
  have hretry : Overlooks _ (retrySchema Spelling.positive.Accepts)
      (retrySchema Spelling.attempts.Accepts) :=
    .object "maximumAttempts" overlooks_attempts.optional fun other hother => by
      simp [List.lookup_cons, hother]
  have hoptions : Overlooks _ (optionsSchema Spelling.positive.Accepts)
      (optionsSchema Spelling.attempts.Accepts) :=
    .object "retry" hretry.optional fun other hother => by simp [List.lookup_cons, hother]
  have hnode : Overlooks _ (nodeSchema Spelling.positive.Accepts)
      (nodeSchema Spelling.attempts.Accepts) :=
    .object "options" hoptions.optional fun other hother => by simp [List.lookup_cons, hother]
  have hdocument : Overlooks _ checkedSchema grammarSchema :=
    .object "nodes" hnode.array fun other hother => by simp [List.lookup_cons, hother]
  refine hdocument.congr fun path => ⟨?_, ?_⟩
  · rintro ⟨_, rfl, index, _, rfl, _, rfl, _, rfl, _, rfl, rfl⟩
    exact ⟨index, rfl⟩
  · rintro ⟨index, rfl⟩
    exact ⟨_, rfl, index, _, rfl, _, rfl, _, rfl, _, rfl, rfl⟩

end FlowGraph.Document
