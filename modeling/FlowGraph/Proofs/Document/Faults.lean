import FlowGraph.Proofs.Document.Reading
import FlowGraph.Proofs.Document.Schema

/-!
# The faults that a refusal names

A document is refused with the places of its faults.  Each place leads to one
member, and the members named are exactly those that the schema of the checks
finds at fault.  Replacing them leaves only what the checks overlook: a number of
attempts that 32 bits do not hold is not named, it is found after all checks have
passed and then reported at the document as a whole.

Main results:

- Theorem `mem_members_violations`: the members named are exactly the faults of
  the schema that the checks follow.
- Theorem `read_after_repair`: replacing some of the named members gives a
  document that is read exactly when none is left out and no number of attempts
  is too large.
- Theorem `read_retryDocument_overflow`: too large a number of attempts is not
  named.
-/

namespace FlowGraph

open Json (Path at? writeAll)
open Schema (record)

/-! ## Named members -/

/-- The path of a place. -/
def Place.path : Place → Path
  | .document => []
  | .member key => [.key key]
  | .item list index keys => .key list :: .index index :: keys.map .key

/-- Only the document as a whole is written as a bare dollar sign. -/
theorem Place.text_ne_of_ne_document {place : Place} (h : place ≠ .document) :
    place.text ≠ "$" := by
  intro heq
  have hlength := congrArg String.length heq
  cases place with
  | document => exact h rfl
  | member key =>
      rw [text, String.length_append] at hlength
      have hdollar : "$.".length = 2 := rfl
      have hone : "$".length = 1 := rfl
      omega
  | item list index keys =>
      simp only [text, String.length_append] at hlength
      have hopen : "[".length = 1 := rfl
      have hclose : "]".length = 1 := rfl
      have hone : "$".length = 1 := rfl
      omega

namespace Violation

/-- The path of the member that a violation names; the document as a whole is not
a member. -/
def member? : Violation → Option Path
  | .shape .document _ _ => none
  | .shape place _ _ => some place.path
  | _ => none

/-- The paths of the members that some violations name. -/
def members (faults : List Violation) : List Path := faults.filterMap member?

end Violation

/-! ## Checks of single members -/

section

variable {check : Json → Option Problem} {kind : Json → Prop}

/-- A check enforces a schema: it finds a problem exactly where the schema has a
fault, and the fault is the member itself. -/
def Check.Enforces (check : Check) (schema : Schema) : Prop :=
  ∀ o path, schema.FaultAt o path ↔ path = [] ∧ check o ≠ none

theorem Check.enforces_optional (h : ∀ v, kind v ↔ check v = none) :
    Enforces (optional check) (.optional (.value kind)) := by
  intro o path
  rcases o with _ | v
  · simp [Schema.FaultAt, Check.optional]
  · cases v <;> simp [Schema.FaultAt, Check.optional, h]

theorem Check.enforces_visible : Enforces requiredText (.value Spelling.visible.Accepts) := by
  intro o path
  rcases o with _ | v
  · simp [Schema.FaultAt, requiredText]
  · cases v <;> simp [Schema.FaultAt, requiredText, Spelling.Accepts, Spelling.visible]

theorem Check.enforces_text : Enforces text (.optional (.value Spelling.text.Accepts)) :=
  enforces_optional fun v => by cases v <;> simp [Spelling.Accepts, Spelling.text]

theorem Check.enforces_label : Enforces label (.optional (.value Spelling.label.Accepts)) :=
  enforces_optional fun v => by cases v <;> simp [Spelling.Accepts, Spelling.label]

theorem Check.enforces_flag : Enforces flag (.optional (.value Spelling.flag.Accepts)) :=
  enforces_optional fun v => by cases v <;> simp [Spelling.Accepts, Spelling.flag]

theorem Check.enforces_object : Enforces object (.optional (.value Spelling.members.Accepts)) :=
  enforces_optional fun v => by cases v <;> simp [Spelling.Accepts, Spelling.members]

/-- A value is an unsigned word exactly when it is the number of that word. -/
theorem uint64?_eq_some_iff {v : Json} {n : UInt64} : v.uint64? = some n ↔ v = .ofUInt64 n := by
  constructor
  · intro h
    rcases v with _ | _ | (i | x) | _ | _ | _ <;> try cases h
    simp only [Json.uint64?, Number.toUInt64?, WordInteger.toUInt64?] at h
    split at h
    next hnonneg =>
      obtain rfl := Option.some.inj h
      refine Document.integer_eq_ofUInt64 ?_
      have hlt : i.val.toNat < UInt64.size := by
        have hhigh := i.high
        have hsize : UInt64.size = 0x10000000000000000 := rfl
        omega
      rw [UInt64.toNat_ofNat_of_lt' hlt]
      omega
    next => cases h
  · rintro rfl
    exact Document.uint64?_ofUInt64 n

theorem Check.enforces_natural : Enforces natural (.optional (.value Spelling.natural.Accepts)) :=
  enforces_optional fun v => by
    simp [Spelling.Accepts, Spelling.natural, Option.isSome_iff_exists, uint64?_eq_some_iff]

theorem Check.enforces_positive (zero : Problem) :
    Enforces (positive zero) (.optional (.value Spelling.positive.Accepts)) :=
  enforces_optional fun v => by
    have hone : ∀ n : UInt64, 1 ≤ n ↔ n ≠ 0 := by
      intro n
      rw [UInt64.le_iff_toNat_le, ne_eq, ← UInt64.toNat_inj]
      exact Nat.one_le_iff_ne_zero
    cases hword : v.uint64? with
    | none =>
        have hne : ∀ n, v ≠ .ofUInt64 n := fun n heq => by
          rw [uint64?_eq_some_iff.mpr heq] at hword
          cases hword
        simp [Spelling.Accepts, Spelling.positive, hne]
    | some n =>
        obtain rfl := uint64?_eq_some_iff.mp hword
        simp only [Spelling.Accepts, Spelling.positive, hone]
        constructor
        · rintro ⟨m, heq, hm⟩
          rw [← Document.ofUInt64_injective heq] at hm
          exact if_neg hm
        · intro hcheck
          exact ⟨n, rfl, fun hzero => by simp [hzero] at hcheck⟩

theorem Check.enforces_coefficient :
    Enforces coefficient (.optional (.value Spelling.coefficient.Accepts)) :=
  enforces_optional fun v => by
    cases v <;> simp [Spelling.Accepts, Spelling.coefficient, Json.real?, Document.atLeastOne_iff]

end

/-! ## Checks of objects -/

namespace Finding

/-- Some finding lies at a path. -/
def Reports (findings : List Finding) (path : Path) : Prop :=
  ∃ finding ∈ findings, finding.1.map Json.Step.key = path

variable {findings findings' : List Finding} {ms : Members} {key : String} {path : Path}

theorem reports_append :
    Reports (findings ++ findings') path ↔ Reports findings path ∨ Reports findings' path := by
  simp only [Reports, List.mem_append, or_and_right, exists_or]

theorem reports_under : Reports (under key findings) path ↔
    ∃ rest, path = .key key :: rest ∧ Reports findings rest := by
  simp only [Reports, under, List.mem_map]
  constructor
  · rintro ⟨_, ⟨finding, hfinding, rfl⟩, rfl⟩
    exact ⟨_, rfl, finding, hfinding, rfl⟩
  · rintro ⟨_, rfl, finding, hfinding, rfl⟩
    exact ⟨_, ⟨finding, hfinding, rfl⟩, rfl⟩

theorem reports_ofChecks_nil : Reports (ofChecks ms []) path ↔ False := by
  simp [Reports, ofChecks]

/-- A check reports the faults of the schema that it enforces. -/
theorem reports_ofChecks_cons {check : Check} {schema : Schema} {checks : List (String × Check)}
    (henforces : check.Enforces schema) :
    Reports (ofChecks ms ((key, check) :: checks)) path ↔
      (∃ rest, path = .key key :: rest ∧ schema.FaultAt (ms.lookup key) rest) ∨
        Reports (ofChecks ms checks) path := by
  have hrow : (∃ rest, path = .key key :: rest ∧ schema.FaultAt (ms.lookup key) rest) ↔
      path = [.key key] ∧ check (ms.lookup key) ≠ none := by
    simp [henforces _ _]
  rw [hrow]
  cases hproblem : check (ms.lookup key) with
  | none =>
      have hskip : ofChecks ms ((key, check) :: checks) = ofChecks ms checks := by
        simp [ofChecks, hproblem]
      simp [hskip]
  | some problem =>
      have hcons : ofChecks ms ((key, check) :: checks) =
          [([key], problem)] ++ ofChecks ms checks := by
        simp [ofChecks, hproblem]
      have hhead : Reports [([key], problem)] path ↔ path = [.key key] := by
        simp [Reports, eq_comm]
      rw [hcons, reports_append, hhead]
      simp

/-- The check of an optional object reports its faults and those inside. -/
theorem reports_ofObject {inside : Members → List Finding} {members : String → Schema}
    (hinside : ∀ ms path,
      Reports (inside ms) path ↔ (Schema.object members).FaultAt (some (.object ms)) path) :
    Reports (ofObject ms key inside) path ↔
      ∃ rest, path = .key key :: rest ∧
        (Schema.optional (.object members)).FaultAt (ms.lookup key) rest := by
  unfold ofObject
  cases hmember : ms.lookup key with
  | none => simp [Reports, Schema.FaultAt, Check.object, Check.optional]
  | some v =>
      cases v with
      | object inner =>
          rw [reports_under]
          simp only [hinside, Schema.FaultAt]
          simp
      | null => simp [Reports, Schema.FaultAt, Check.object, Check.optional]
      | _ =>
          simp [Reports, Schema.FaultAt, Check.object, Check.optional, eq_comm]

theorem reports_ofRetry :
    Reports (ofRetry ms) path ↔
      (Document.retrySchema Spelling.positive.Accepts).FaultAt (some (.object ms)) path := by
  rw [Document.retrySchema, Schema.faultAt_record (by decide), ofRetry]
  simp only [reports_ofChecks_cons Check.enforces_flag,
    reports_ofChecks_cons (Check.enforces_positive _),
    reports_ofChecks_cons Check.enforces_natural,
    reports_ofChecks_cons Check.enforces_coefficient, reports_ofChecks_nil, List.mem_cons,
    List.not_mem_nil, or_false, exists_eq_or_imp, exists_eq_left]

theorem reports_ofOptions :
    Reports (ofOptions ms) path ↔
      (Document.optionsSchema Spelling.positive.Accepts).FaultAt (some (.object ms)) path := by
  rw [Document.optionsSchema, Schema.faultAt_record (by decide), ofOptions, reports_append,
    reports_ofObject fun ms path => reports_ofRetry]
  simp only [reports_ofChecks_cons Check.enforces_flag,
    reports_ofChecks_cons (Check.enforces_positive _),
    reports_ofChecks_cons Check.enforces_natural, reports_ofChecks_nil, List.mem_cons,
    List.not_mem_nil, or_false, exists_eq_or_imp, exists_eq_left, or_assoc]
  rfl

theorem reports_ofNode :
    Reports (ofNode ms) path ↔
      (Document.nodeSchema Spelling.positive.Accepts).FaultAt (some (.object ms)) path := by
  rw [Document.nodeSchema, Schema.faultAt_record (by decide), ofNode, reports_append,
    reports_ofObject fun ms path => reports_ofOptions]
  simp only [reports_ofChecks_cons Check.enforces_visible,
    reports_ofChecks_cons Check.enforces_text, reports_ofChecks_cons Check.enforces_object,
    reports_ofChecks_cons Check.enforces_flag, reports_ofChecks_nil, List.mem_cons,
    List.not_mem_nil, or_false, exists_eq_or_imp, exists_eq_left, or_assoc]
  rfl

theorem reports_ofConnection :
    Reports (ofConnection ms) path ↔
      Document.connectionSchema.FaultAt (some (.object ms)) path := by
  rw [Document.connectionSchema, Schema.faultAt_record (by decide), ofConnection]
  simp only [reports_ofChecks_cons Check.enforces_visible,
    reports_ofChecks_cons Check.enforces_label, reports_ofChecks_nil, List.mem_cons,
    List.not_mem_nil, or_false, exists_eq_or_imp, exists_eq_left]

end Finding

/-! ## Checks of documents -/

namespace Document

open Violation (members)

section

variable {path : Path}

theorem mem_members_append {faults faults' : List Violation} :
    path ∈ members (faults ++ faults') ↔ path ∈ members faults ∨ path ∈ members faults' := by
  rw [members, List.filterMap_append, List.mem_append]
  rfl

/-- Findings in the document itself name its members. -/
theorem mem_members_ofChecks {root : Members} {checks : List (String × Check)} :
    path ∈ members ((Finding.ofChecks root checks).map
        fun finding => .shape (.member (".".intercalate finding.1)) none finding.2) ↔
      Finding.Reports (Finding.ofChecks root checks) path := by
  have hsingle : ∀ finding ∈ Finding.ofChecks root checks,
      [Json.Step.key (".".intercalate finding.1)] = finding.1.map Json.Step.key := by
    intro finding hfinding
    obtain ⟨⟨key, check⟩, -, hproblem⟩ := List.mem_filterMap.mp hfinding
    obtain ⟨problem, -, rfl⟩ := Option.map_eq_some_iff.mp hproblem
    rfl
  simp only [members, List.mem_filterMap, List.mem_map, Finding.Reports]
  constructor
  · rintro ⟨_, ⟨finding, hfinding, rfl⟩, ⟨⟩⟩
    exact ⟨finding, hfinding, (hsingle finding hfinding).symm⟩
  · rintro ⟨finding, hfinding, rfl⟩
    exact ⟨_, ⟨finding, hfinding, rfl⟩, congrArg some (hsingle finding hfinding)⟩

/-- Findings inside an item name the members below it. -/
theorem mem_members_item {list : String} {index : Nat} {id : Option String}
    {findings : List Finding} :
    path ∈ members (findings.map fun finding => .shape (.item list index finding.1) id finding.2) ↔
      ∃ rest, path = .key list :: .index index :: rest ∧ Finding.Reports findings rest := by
  simp only [members, List.mem_filterMap, List.mem_map, Finding.Reports]
  constructor
  · rintro ⟨_, ⟨finding, hfinding, rfl⟩, ⟨⟩⟩
    exact ⟨_, rfl, finding, hfinding, rfl⟩
  · rintro ⟨_, rfl, finding, hfinding, rfl⟩
    exact ⟨_, ⟨finding, hfinding, rfl⟩, rfl⟩

theorem mem_members_nodeViolations {index : Nat} {v : Json} :
    path ∈ members (nodeViolations index v) ↔
      ∃ rest, path = .key "nodes" :: .index index :: rest ∧
        (nodeSchema Spelling.positive.Accepts).FaultAt (some v) rest := by
  cases v with
  | object node =>
      rw [nodeViolations, mem_members_item]
      simp only [Finding.reports_ofNode]
  | _ =>
      simp [nodeViolations, members, Violation.member?, Place.path, nodeSchema, record,
        Schema.FaultAt, eq_comm]

theorem mem_members_connectionViolations {index : Nat} {v : Json} :
    path ∈ members (connectionViolations index v) ↔
      ∃ rest, path = .key "connections" :: .index index :: rest ∧
        connectionSchema.FaultAt (some v) rest := by
  cases v with
  | object connection =>
      rw [connectionViolations, mem_members_item]
      simp only [Finding.reports_ofConnection]
  | _ =>
      simp [connectionViolations, members, Violation.member?, Place.path, connectionSchema, record,
        Schema.FaultAt, eq_comm]

/-- The faults of the items are the faults of their array. -/
theorem mem_members_itemViolations {check : Nat → Json → List Violation} {list : String}
    {item : Schema} {items : List Json}
    (hcheck : ∀ index v, path ∈ members (check index v) ↔
      ∃ rest, path = .key list :: .index index :: rest ∧ item.FaultAt (some v) rest) :
    path ∈ members (itemViolations check items) ↔
      ∃ rest, path = .key list :: rest ∧
        (Schema.array item).FaultAt (some (.array items)) rest := by
  have hitems : path ∈ members (itemViolations check items) ↔
      ∃ entry ∈ items.zipIdx, path ∈ members (check entry.2 entry.1) := by
    simp only [members, itemViolations, List.filterMap_flatMap, List.mem_flatMap]
  rw [hitems]
  simp only [hcheck, Schema.FaultAt]
  constructor
  · rintro ⟨⟨v, index⟩, hentry, rest, rfl, hfault⟩
    exact ⟨_, rfl, index, rest, v, rfl, List.mem_zipIdx_iff_getElem?.mp hentry, hfault⟩
  · rintro ⟨_, rfl, index, rest, v, rfl, hitem, hfault⟩
    exact ⟨(v, index), List.mem_zipIdx_iff_getElem?.mpr hitem, rest, rfl, hfault⟩

/-- The members that the checks name are exactly the faults of their schema. -/
theorem mem_members_violations (root : Members) (path : Path) :
    path ∈ members (violations (.object root)) ↔
      checkedSchema.FaultAt (some (.object root)) path := by
  rw [checkedSchema, documentSchema, Schema.faultAt_record (by decide), violations,
    mem_members_append, mem_members_append]
  simp only [List.mem_cons, List.not_mem_nil, or_false, exists_eq_or_imp, exists_eq_left]
  simp only [← or_assoc]
  refine or_congr (or_congr ?_ ?_) ?_
  · rw [mem_members_ofChecks]
    simp only [Finding.reports_ofChecks_cons Check.enforces_text, Finding.reports_ofChecks_nil,
      or_false]
  · generalize root.lookup "nodes" = nodes
    rcases nodes with _ | v
    · simp [members, Violation.member?, Place.path, Schema.FaultAt, eq_comm]
    · cases v with
      | array items => exact mem_members_itemViolations fun _ _ => mem_members_nodeViolations
      | _ => simp [members, Violation.member?, Place.path, Schema.FaultAt, eq_comm]
  · generalize root.lookup "connections" = connections
    rcases connections with _ | v
    · simp [members, Schema.FaultAt]
    · cases v with
      | array items =>
          have hitems : path ∈ members (itemViolations connectionViolations items) ↔ _ :=
            mem_members_itemViolations fun _ _ => mem_members_connectionViolations
          simpa [Schema.FaultAt] using hitems
      | null => simp [members, Schema.FaultAt]
      | _ => simp [members, Violation.member?, Place.path, Schema.FaultAt, eq_comm]

end

/-! ## Replacing the named members -/

/-- Every number of attempts that is an unsigned word is a 32-bit one. -/
def AttemptsFit (v : Json) : Prop :=
  ∀ index n, at? (attemptsPath index) (some v) = some (.ofUInt64 n) → n.toNat < UInt32.size

/-- A value that the grammar accepts at a path. -/
def ValidAt (path : Path) (v : Json) : Prop := (grammarSchema.inside path).Accepts (some v)

theorem attemptsFit_iff (v : Json) :
    AttemptsFit v ↔
      ∀ path, ¬ TooMany (fun path => ∃ index, path = attemptsPath index) (some v) path := by
  constructor
  · rintro hfit path ⟨⟨index, rfl⟩, n, hn, hsize⟩
    exact Nat.not_lt.mpr hsize (hfit index n hn)
  · intro h index n hn
    exact Nat.not_le.mp fun hsize => h _ ⟨⟨index, rfl⟩, n, hn, hsize⟩

/-- A document is read exactly when the schema of the grammar accepts it. -/
theorem exists_read_iff {v : Json} (h : v.Ordered) :
    (∃ d, Document.read v = .ok d) ↔ grammarSchema.Accepts (some v) := by
  rw [accepts_grammar_iff, wellShaped_iff]
  exact exists_congr (read_eq_ok_iff h)

/-- The faults of the grammar are those that the checks name and the numbers of
attempts that are too large. -/
theorem forall_fault_mem_iff {root : Members} {chosen : List Path}
    (hchosen : chosen ⊆ members (violations (.object root))) :
    (∀ path, grammarSchema.FaultAt (some (.object root)) path → path ∈ chosen) ↔
      AttemptsFit (.object root) ∧ members (violations (.object root)) ⊆ chosen := by
  have hnamed : ∀ path, path ∈ members (violations (.object root)) ↔
      grammarSchema.FaultAt (some (.object root)) path ∧
        ¬ TooMany (fun path => ∃ index, path = attemptsPath index) (some (.object root)) path :=
    fun path => (mem_members_violations root path).trans (overlooks_document.others _ path)
  rw [attemptsFit_iff]
  constructor
  · intro hall
    refine ⟨fun path htoo => ?_, fun path hpath => hall path ((hnamed path).mp hpath).1⟩
    have hmem := hchosen (hall path (overlooks_document.fault _ path htoo))
    exact ((hnamed path).mp hmem).2 htoo
  · rintro ⟨hfit, hsubset⟩ path hfault
    exact hsubset ((hnamed path).mpr ⟨hfault, hfit path⟩)

/-- A refusal gives the faults found by the checks or, when there are none, one at
the document as a whole. -/
theorem read_eq_error {v : Json} {faults : List Violation} (h : Document.read v = .error faults) :
    violations v = faults ∧ faults ≠ [] ∨
      violations v = [] ∧ ∃ problem, faults = [.shape .document none problem] := by
  unfold Document.read at h
  split at h
  next hnone =>
    split at h
    next => cases h
    next fault heq => exact .inr ⟨hnone, _, (Except.error.inj h).symm⟩
  next hsome =>
    obtain rfl := Except.error.inj h
    exact .inl ⟨rfl, hsome⟩

/-- A refusal names the members that the checks find at fault. -/
theorem members_of_refused {v : Json} {faults : List Violation}
    (h : Document.read v = .error faults) : members faults = members (violations v) := by
  rcases read_eq_error h with ⟨hsome, -⟩ | ⟨hnone, problem, rfl⟩
  · rw [hsome]
  · rw [hnone]
    rfl

theorem place_of_mem_items {check : Nat → Json → List Violation} {items : List Json}
    (hcheck : ∀ index v, ∀ fault ∈ check index v,
      ∃ place id problem, fault = .shape place id problem ∧ place ≠ .document)
    {fault : Violation} (hfault : fault ∈ itemViolations check items) :
    ∃ place id problem, fault = .shape place id problem ∧ place ≠ .document := by
  obtain ⟨entry, -, hfault⟩ := List.mem_flatMap.mp hfault
  exact hcheck _ _ fault hfault

/-- The checks of an object report nothing at the document as a whole. -/
theorem place_of_mem_violations {root : Members} {fault : Violation}
    (hfault : fault ∈ violations (.object root)) :
    ∃ place id problem, fault = .shape place id problem ∧ place ≠ .document := by
  have hnode (index : Nat) (v : Json) (fault : Violation) (h : fault ∈ nodeViolations index v) :
      ∃ place id problem, fault = .shape place id problem ∧ place ≠ .document := by
    cases v <;> simp [nodeViolations] at h <;> grind
  have hconnection (index : Nat) (v : Json) (fault : Violation)
      (h : fault ∈ connectionViolations index v) :
      ∃ place id problem, fault = .shape place id problem ∧ place ≠ .document := by
    cases v <;> simp [connectionViolations] at h <;> grind
  rw [violations, List.mem_append, List.mem_append] at hfault
  rcases hfault with (htext | hnodes) | hconnections
  · obtain ⟨finding, -, rfl⟩ := List.mem_map.mp htext
    exact ⟨_, _, _, rfl, by simp⟩
  · split at hnodes
    · exact place_of_mem_items hnode hnodes
    · exact ⟨_, _, _, List.mem_singleton.mp hnodes, by simp⟩
    · exact ⟨_, _, _, List.mem_singleton.mp hnodes, by simp⟩
  · split at hconnections
    · exact place_of_mem_items hconnection hconnections
    · cases hconnections
    · cases hconnections
    · exact ⟨_, _, _, List.mem_singleton.mp hconnections, by simp⟩

/-- Replacing some of the members that a refusal names by valid values gives a
document that is read exactly when none of them is left out and every number of
attempts fits 32 bits.  If all of them fit, nothing is reported at the document as
a whole.  A document that comes from a text is ordered, by `Json.ordered_of_parse`. -/
theorem read_after_repair (root : Members) (hordered : (Json.object root).Ordered)
    {faults : List Violation} (hrefused : Document.read (.object root) = .error faults) :
    (AttemptsFit (.object root) → ∀ fault ∈ faults,
        ∃ place id problem, fault = .shape place id problem ∧ place.text ≠ "$") ∧
      ∀ values : Path → Json,
        (∀ path ∈ members faults, (values path).Ordered ∧ ValidAt path (values path)) →
        ∀ chosen ⊆ members faults, chosen.Nodup →
          ((∃ d, Document.read (writeAll values chosen (.object root)) = .ok d) ↔
            AttemptsFit (.object root) ∧ members faults ⊆ chosen) := by
  rw [members_of_refused hrefused]
  constructor
  · intro hfit fault hfault
    rcases read_eq_error hrefused with ⟨rfl, -⟩ | ⟨hnone, problem, rfl⟩
    · obtain ⟨place, id, problem, hshape, hplace⟩ := place_of_mem_violations hfault
      exact ⟨place, id, problem, hshape, Place.text_ne_of_ne_document hplace⟩
    · have haccepted : ∃ d, Document.read (.object root) = .ok d := by
        rw [exists_read_iff hordered, Schema.accepts_iff]
        have hfaults := (forall_fault_mem_iff (List.nil_subset _)).mpr
          ⟨hfit, by rw [hnone]; exact List.nil_subset _⟩
        exact fun path hpath => List.not_mem_nil (hfaults path hpath)
      obtain ⟨d, hd⟩ := haccepted
      rw [hd] at hrefused
      cases hrefused
  · intro values hvalues chosen hchosen hnodup
    have hwritten : (writeAll values chosen (.object root)).Ordered :=
      Json.ordered_writeAll (fun path hpath => (hvalues path (hchosen hpath)).1) hordered
    have hfaults : ∀ path ∈ chosen, grammarSchema.FaultAt (some (.object root)) path := by
      intro path hpath
      have hnamed := (mem_members_violations root path).mp (hchosen hpath)
      exact ((overlooks_document.others _ path).mp hnamed).1
    rw [exists_read_iff hwritten, Schema.accepts_writeAll_iff hnodup hfaults fun path hpath =>
      (hvalues path (hchosen hpath)).2]
    exact forall_fault_mem_iff hchosen

/-- A document whose only node has some type, retry policy and display name of the
document. -/
def retryDocument (name type attempts : Json) : Json :=
  .object [
    ("name", name),
    ("nodes", .array [.object [
      ("id", .string "a"),
      ("options", .object [("retry", .object [("maximumAttempts", attempts)])]),
      ("type", type)]])]

theorem read_after_repair_retryDocument :
    (retryDocument (.bool true) (.string "") (.ofUInt64 0)).Ordered ∧
      Document.read (retryDocument (.bool true) (.string "") (.ofUInt64 0)) =
        .error [
          .shape (.member "name") none .notString,
          .shape (.item "nodes" 0 ["type"]) (some "a") .emptyText,
          .shape (.item "nodes" 0 ["options", "retry", "maximumAttempts"]) (some "a")
            .belowOne] ∧
      ∃ d, Document.read (retryDocument (.string "t") (.string "t") (.ofUInt64 3)) = .ok d := by
  have hordered : (retryDocument (.bool true) (.string "") (.ofUInt64 0)).Ordered := by decide
  have hrefused : Document.read (retryDocument (.bool true) (.string "") (.ofUInt64 0)) = .error [
      .shape (.member "name") none .notString,
      .shape (.item "nodes" 0 ["type"]) (some "a") .emptyText,
      .shape (.item "nodes" 0 ["options", "retry", "maximumAttempts"]) (some "a") .belowOne] := by
    rfl
  have hfit : AttemptsFit (retryDocument (.bool true) (.string "") (.ofUInt64 0)) := by
    rintro (_ | index) n hn
    · obtain rfl := ofUInt64_injective (Option.some.inj hn)
      decide
    · cases hn
  let values : Path → Json := fun path =>
    if path = attemptsPath 0 then .ofUInt64 3 else .string "t"
  obtain ⟨-, hrepair⟩ := read_after_repair _ hordered hrefused
  have hvalues : ∀ path ∈ [[.key "name"], [.key "nodes", .index 0, .key "type"], attemptsPath 0],
      (values path).Ordered ∧ ValidAt path (values path) := by
    simp only [List.forall_mem_cons, List.not_mem_nil, false_imp_iff, implies_true, and_true]
    refine ⟨⟨trivial, .inr (.inr ⟨_, rfl, "t", rfl⟩)⟩, ⟨trivial, _, rfl, "t", rfl, by decide⟩,
      trivial, .inr (.inr ⟨_, rfl, 3, rfl, by decide⟩)⟩
  exact ⟨hordered, hrefused,
    (hrepair values hvalues _ (List.Subset.refl _) (by decide)).mpr ⟨hfit, List.Subset.refl _⟩⟩

/-- Too large a number of attempts is reported at the document as a whole, and only
after every other fault is gone. -/
theorem read_retryDocument_overflow :
    Document.read (retryDocument .null (.string "t") (.ofUInt64 0x100000000)) =
        .error [.shape .document none (.unreadable (.outOfRange 0x100000000 "u32"))] ∧
      Place.document.text = "$" ∧
      Document.read (retryDocument (.bool true) (.string "t") (.ofUInt64 0x100000000)) =
        .error [.shape (.member "name") none .notString] ∧
      Document.read (writeAll (fun _ => .string "t") [[.key "name"]]
          (retryDocument (.bool true) (.string "t") (.ofUInt64 0x100000000))) =
        .error [.shape .document none (.unreadable (.outOfRange 0x100000000 "u32"))] := by
  refine ⟨by rfl, by rfl, by rfl, by rfl⟩

end Document

end FlowGraph
