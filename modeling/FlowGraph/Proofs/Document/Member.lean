import FlowGraph.Document.Shape
import FlowGraph.Proofs.Document.Grammar
import FlowGraph.Proofs.Fallible
import FlowGraph.Proofs.Json.Integer
import FlowGraph.Proofs.Json.Ordered

/-!
# Checking and reading members

A member of a document is checked where it stands, and read by its name after
the null members of its object were left out.  Both passes look at the same
value, so a member that passes its check and is read spells, in the sense of the
grammar, what it is read as, and nothing else passes and is read.

Main results:

- Theorem `Members.lookup_present`: leaving out the null members of an ordered
  object hides exactly those.
- Theorems `spells_iff` and `spellsOr_iff`: a member that passes its check and is
  read spells the value it is read as.
- Theorem `atLeastOne_iff`: an integer is one or more exactly when its binary64
  is.
- Theorems `agrees_text`, `agrees_natural` and so on: the check, the reader and
  the grammar agree on every kind of value.
-/

namespace FlowGraph

open Decimal (Binary64)

/-! ## Leaving out null members -/

namespace Members

/-- Leaving out the null members of an ordered object hides exactly those. -/
theorem lookup_present {ms : Members} (h : ms.Ordered) (key : String) :
    (Document.present ms).lookup key = (ms.lookup key).filter fun v => !v.isNull := by
  have hpresent : (Document.present ms).Ordered := List.Pairwise.filter _ h
  ext v
  rw [lookup_eq_some_iff hpresent, Option.filter_eq_some_iff, lookup_eq_some_iff h,
    Document.present, List.mem_filter]

/-- Change the value of a member. -/
def revise (key : String) (f : Json → Json) (ms : Members) : Members :=
  ms.map fun m => (m.1, if m.1 = key then f m.2 else m.2)

theorem lookup_revise (key : String) (f : Json → Json) (ms : Members) (name : String) :
    (ms.revise key f).lookup name = (ms.lookup name).map fun v => if name = key then f v else v :=
  lookup_map_values ms (fun k v => if k = key then f v else v) name

theorem absent_or (ms : Members) (key : String) :
    ms.Absent key ∨ ∃ v, ms.lookup key = some v ∧ v ≠ .null := by
  cases h : ms.lookup key with
  | none => exact .inl (.inl h)
  | some v =>
      by_cases hv : v = .null
      · exact .inl (.inr (by rw [h, hv]))
      · exact .inr ⟨v, rfl, hv⟩

theorem ordered_of_lookup {ms : Members} (h : (Json.object ms).Ordered) {key : String} {v : Json}
    (hv : ms.lookup key = some v) : v.Ordered := by
  obtain ⟨hnames, hvalues⟩ := Json.ordered_object.mp h
  exact hvalues (key, v) ((lookup_eq_some_iff hnames).mp hv)

end Members

namespace Document

/-- Change the members of an object. -/
def inObject (f : Members → Members) : Json → Json
  | .object inner => .object (f inner)
  | v => v

/-- Change the members of every object in an array. -/
def inItems (f : Members → Members) : Json → Json
  | .array items => .array (items.map (inObject f))
  | v => v

theorem mapObject_eq_revise (key : String) (f : Members → Members) (ms : Members) :
    mapObject key f ms = ms.revise key (inObject f) := by
  refine List.map_congr_left fun m _ => ?_
  obtain ⟨k, v⟩ := m
  cases v <;> simp only [inObject, ite_self]
  split <;> rfl

theorem mapItems_eq_revise (key : String) (f : Members → Members) (ms : Members) :
    mapItems key f ms = ms.revise key (inItems f) := by
  refine List.map_congr_left fun m _ => ?_
  obtain ⟨k, v⟩ := m
  cases v <;> simp only [inItems, ite_self]
  split <;> rfl

/-- What is read under a name is the member of the document unless it is null, changed inside. -/
def Strips (source stripped : Members) (key : String) (change : Json → Json) : Prop :=
  stripped.lookup key = ((source.lookup key).filter fun v => !v.isNull).map change

section

variable {source stripped : Members} {key name : String} {change : Json → Json}
  {f : Members → Members}

theorem strips_present (h : source.Ordered) (key : String) :
    Strips source (present source) key id := by
  rw [Strips, Members.lookup_present h, Option.map_id_fun, id]

theorem Strips.of_absent (h : Strips source stripped key change) (habsent : source.Absent key) :
    stripped.lookup key = none := by
  rcases habsent with hnone | hnull
  · rw [h, hnone]
    rfl
  · rw [h, hnull]
    rfl

theorem Strips.of_some {v : Json} (h : Strips source stripped key change)
    (hv : source.lookup key = some v) (hne : v ≠ .null) :
    stripped.lookup key = some (change v) := by
  have hkept : v.isNull = false := by
    cases v <;> first | rfl | exact absurd rfl hne
  rw [h, hv]
  simp [hkept]

theorem Strips.revise_self {g : Json → Json} (h : Strips source stripped key id) :
    Strips source (stripped.revise key g) key g := by
  rw [Strips, Members.lookup_revise, h]
  simp

theorem Strips.revise_other {g : Json → Json} (h : Strips source stripped name change)
    (hne : name ≠ key) : Strips source (stripped.revise key g) name change := by
  rw [Strips, Members.lookup_revise, h, Option.map_map]
  simp only [hne, if_false, Function.comp_def]

theorem Strips.mapObject_self (h : Strips source stripped key id) :
    Strips source (mapObject key f stripped) key (inObject f) := by
  rw [mapObject_eq_revise]
  exact h.revise_self

theorem Strips.mapObject_other (h : Strips source stripped name change) (hne : name ≠ key) :
    Strips source (mapObject key f stripped) name change := by
  rw [mapObject_eq_revise]
  exact h.revise_other hne

theorem Strips.mapItems_self (h : Strips source stripped key id) :
    Strips source (mapItems key f stripped) key (inItems f) := by
  rw [mapItems_eq_revise]
  exact h.revise_self

theorem Strips.mapItems_other (h : Strips source stripped name change) (hne : name ≠ key) :
    Strips source (mapItems key f stripped) name change := by
  rw [mapItems_eq_revise]
  exact h.revise_other hne

end

/-! ## Members that are checked and read -/

/-- A value that passes a check and is read spells what it is read as, and every spelling passes
and is read. -/
def Agrees {α : Type} (accepted : Option Json → Prop) (read : ReadAs α)
    (spelling : Spelling α) : Prop :=
  ∀ v x, v.Ordered → (spelling v x ↔ v ≠ .null ∧ accepted (some v) ∧ read v = .ok x)

/-- The same for a member that may also be missing or null. -/
structure AgreesOr {α : Type} (accepted : Option Json → Prop) (read : ReadAs α)
    (spelling : Spelling α) : Prop where
  missing : accepted none
  null : accepted (some .null)
  value : Agrees accepted read spelling

section

variable {α : Type} {source stripped : Members} {key : String} {change : Json → Json}
  {accepted : Option Json → Prop} {read : ReadAs α} {spelling : Spelling α} {x : α}

/-- A required member that passes its check and is read spells the value it is read as. -/
theorem spells_iff (hsource : (Json.object source).Ordered)
    (hstrips : Strips source stripped key change)
    (hagrees : Agrees accepted (fun v => read (change v)) spelling) :
    accepted (source.lookup key) ∧ stripped.required key read = .ok x ↔
      source.Spells key spelling x := by
  constructor
  · rintro ⟨haccepted, hread⟩
    rcases source.absent_or key with habsent | ⟨v, hv, hne⟩
    · rw [Members.required, hstrips.of_absent habsent] at hread
      cases hread
    · rw [Members.required, hstrips.of_some hv hne] at hread
      rw [hv] at haccepted
      have hordered := Members.ordered_of_lookup hsource hv
      exact ⟨v, hv, (hagrees v x hordered).mpr ⟨hne, haccepted, hread⟩⟩
  · rintro ⟨v, hv, hx⟩
    obtain ⟨hne, haccepted, hread⟩ :=
      (hagrees v x (Members.ordered_of_lookup hsource hv)).mp hx
    rw [Members.required, hstrips.of_some hv hne, hv]
    exact ⟨haccepted, hread⟩

/-- A member with a default that passes its check and is read spells the value it is read as. -/
theorem spellsOr_iff {d : α} (hsource : (Json.object source).Ordered)
    (hstrips : Strips source stripped key change)
    (hagrees : AgreesOr accepted (fun v => read (change v)) spelling) :
    accepted (source.lookup key) ∧ stripped.defaulted key d read = .ok x ↔
      source.SpellsOr key d spelling x := by
  rcases source.absent_or key with habsent | ⟨v, hv, hne⟩
  · have haccepted : accepted (source.lookup key) := by
      rcases habsent with h | h <;> rw [h]
      · exact hagrees.missing
      · exact hagrees.null
    have hspells : ¬ source.Spells key spelling x := by
      rw [← spells_iff hsource hstrips hagrees.value, Members.required,
        hstrips.of_absent habsent]
      exact fun h => by cases h.2
    rw [Members.SpellsOr, Members.defaulted, hstrips.of_absent habsent]
    simp [haccepted, habsent, hspells, eq_comm]
  · have hpresent : ¬ source.Absent key := by
      rintro (h | h) <;> simp_all
    rw [Members.SpellsOr, ← spells_iff hsource hstrips hagrees.value, Members.defaulted,
      Members.required, hstrips.of_some hv hne]
    simp [hpresent]

end

/-! ## Kinds of values -/

theorem agrees_visible :
    Agrees (fun o => Check.requiredText o = none) ReadAs.string Spelling.visible := by
  intro v x _
  cases v <;> simp [Spelling.visible, Check.requiredText, ReadAs.string]
  grind

theorem agrees_text : AgreesOr (fun o => Check.text o = none) ReadAs.string Spelling.text := by
  refine ⟨rfl, rfl, ?_⟩
  intro v x _
  cases v <;> simp [Spelling.text, Check.text, Check.optional, ReadAs.string]

theorem agrees_label : AgreesOr (fun o => Check.label o = none) ReadAs.string Spelling.label := by
  refine ⟨rfl, rfl, ?_⟩
  intro v x _
  cases v <;> simp [Spelling.label, Check.label, Check.optional, ReadAs.string]
  grind

theorem agrees_flag : AgreesOr (fun o => Check.flag o = none) ReadAs.bool Spelling.flag := by
  refine ⟨rfl, rfl, ?_⟩
  intro v x _
  cases v <;> simp [Spelling.flag, Check.flag, Check.optional, ReadAs.bool]

theorem agrees_members :
    AgreesOr (fun o => Check.object o = none) ReadAs.members Spelling.members := by
  refine ⟨rfl, rfl, ?_⟩
  intro v x _
  cases v <;> simp [Spelling.members, Check.object, Check.optional, ReadAs.members]

/-! ### Integers -/

/-- An integer below a bound is the unsigned word of its value. -/
theorem read_below_iff {bound : Int} {type : String} {v : Json} {n : Nat} :
    ReadAs.below bound type v = .ok n ↔
      ∃ i : WordInteger, v = .number (.integer i) ∧ i.val = n ∧ i.val < bound := by
  unfold ReadAs.below
  split
  next i =>
    split
    next h =>
      constructor
      · intro heq
        cases heq
        exact ⟨i, rfl, by omega, h.2⟩
      · rintro ⟨j, heq, hval, -⟩
        cases heq
        rw [hval]
        rfl
    next h =>
      constructor
      · intro heq
        cases heq
      · rintro ⟨j, heq, hval, hbelow⟩
        cases heq
        omega
  next h =>
    constructor
    · intro heq
      cases heq
    · rintro ⟨i, heq, -⟩
      exact absurd heq (h i)

theorem map_below_iff {α : Type} {f : Nat → α} {bound : Int} {type : String} {v : Json} {n : α} :
    f <$> ReadAs.below bound type v = .ok n ↔
      ∃ i : WordInteger, ∃ k : Nat, v = .number (.integer i) ∧ i.val = k ∧ i.val < bound ∧
        f k = n := by
  cases h : ReadAs.below bound type v with
  | error fault =>
      constructor
      · intro heq
        cases heq
      · rintro ⟨i, k, hv, hk, hbelow, -⟩
        rw [read_below_iff.mpr ⟨i, hv, hk, hbelow⟩] at h
        cases h
  | ok m =>
      constructor
      · intro heq
        obtain ⟨i, hv, hm, hbelow⟩ := read_below_iff.mp h
        exact ⟨i, m, hv, hm, hbelow, Except.ok.inj heq⟩
      · rintro ⟨i, k, hv, hk, hbelow, rfl⟩
        rw [read_below_iff.mpr ⟨i, hv, hk, hbelow⟩] at h
        cases h
        rfl

theorem integer_eq_ofUInt64 {i : WordInteger} {n : UInt64} (h : i.val = n.toNat) :
    Json.number (.integer i) = .ofUInt64 n := by
  obtain ⟨val, low, high⟩ := i
  subst h
  rfl

/-- An unsigned 64-bit word is read from its number only. -/
theorem read_uint64_iff {v : Json} {n : UInt64} : ReadAs.uint64 v = .ok n ↔ v = .ofUInt64 n := by
  rw [ReadAs.uint64, map_below_iff]
  constructor
  · rintro ⟨i, k, rfl, hk, hbelow, rfl⟩
    refine integer_eq_ofUInt64 ?_
    have hk' : k < UInt64.size := by omega
    rw [UInt64.toNat_ofNat_of_lt' hk', hk]
  · rintro rfl
    have hbelow : ((n.toNat : Nat) : Int) < UInt64.size := by exact_mod_cast n.toNat_lt_size
    exact ⟨.ofUInt64 n, n.toNat, rfl, rfl, hbelow, UInt64.ofNat_toNat⟩

/-- An unsigned 32-bit word is read from its number only. -/
theorem read_uint32_iff {v : Json} {n : UInt32} :
    ReadAs.uint32 v = .ok n ↔ v = .ofUInt64 n.toUInt64 := by
  rw [ReadAs.uint32, map_below_iff]
  constructor
  · rintro ⟨i, k, rfl, hk, hbelow, rfl⟩
    refine integer_eq_ofUInt64 ?_
    have hk' : k < UInt32.size := by omega
    rw [UInt32.toNat_toUInt64, UInt32.toNat_ofNat_of_lt' hk', hk]
  · rintro rfl
    have hbelow : ((n.toNat : Nat) : Int) < UInt32.size := by exact_mod_cast n.toNat_lt_size
    exact ⟨.ofUInt64 n.toUInt64, n.toNat, rfl, rfl, hbelow, UInt32.ofNat_toNat⟩

theorem ofUInt64_ne_null (n : UInt64) : Json.ofUInt64 n ≠ .null := fun h => by cases h

theorem uint64?_ofUInt64 (n : UInt64) : (Json.ofUInt64 n).uint64? = some n :=
  Number.toUInt64?_ofUInt64 n

theorem check_natural_ofUInt64 (n : UInt64) : Check.natural (some (.ofUInt64 n)) = none := by
  have hword : (Json.number (.ofUInt64 n)).uint64? = some n := uint64?_ofUInt64 n
  simp [Check.natural, Check.optional, Json.ofUInt64, hword]

theorem check_positive_ofUInt64 (zero : Problem) (n : UInt64) :
    Check.positive zero (some (.ofUInt64 n)) = none ↔ 1 ≤ n := by
  have hword : (Json.number (.ofUInt64 n)).uint64? = some n := uint64?_ofUInt64 n
  have hcheck : Check.positive zero (some (.ofUInt64 n)) = if n = 0 then some zero else none := by
    simp [Check.positive, Check.optional, Json.ofUInt64, hword]
  have hone : 1 ≤ n ↔ ¬ n = 0 := by
    rw [UInt64.le_iff_toNat_le, ← UInt64.toNat_inj]
    change 1 ≤ n.toNat ↔ ¬ n.toNat = 0
    omega
  rw [hcheck, hone]
  split <;> simp_all

theorem agrees_natural :
    AgreesOr (fun o => Check.natural o = none) ReadAs.uint64 Spelling.natural := by
  refine ⟨rfl, rfl, ?_⟩
  intro v n _
  rw [read_uint64_iff, Spelling.natural]
  constructor
  · rintro rfl
    exact ⟨ofUInt64_ne_null n, check_natural_ofUInt64 n, rfl⟩
  · exact fun h => h.2.2

theorem agrees_positive (zero : Problem) :
    AgreesOr (fun o => Check.positive zero o = none) ReadAs.uint64 Spelling.positive := by
  refine ⟨rfl, rfl, ?_⟩
  intro v n _
  rw [read_uint64_iff, Spelling.positive]
  constructor
  · rintro ⟨rfl, hpos⟩
    exact ⟨ofUInt64_ne_null n, (check_positive_ofUInt64 zero n).mpr hpos, rfl⟩
  · rintro ⟨-, hcheck, rfl⟩
    exact ⟨rfl, (check_positive_ofUInt64 zero n).mp hcheck⟩

/-- The check lets 64-bit integers pass; the reading that follows takes 32-bit ones. -/
theorem agrees_attempts (zero : Problem) :
    AgreesOr (fun o => Check.positive zero o = none) ReadAs.uint32 Spelling.attempts := by
  refine ⟨rfl, rfl, ?_⟩
  intro v n _
  have hone : 1 ≤ n.toUInt64 ↔ 1 ≤ n := by
    rw [UInt64.le_iff_toNat_le, UInt32.le_iff_toNat_le, UInt32.toNat_toUInt64]
    rfl
  rw [read_uint32_iff, Spelling.attempts, ← hone]
  constructor
  · rintro ⟨rfl, hpos⟩
    exact ⟨ofUInt64_ne_null _, (check_positive_ofUInt64 zero _).mpr hpos, rfl⟩
  · rintro ⟨-, hcheck, rfl⟩
    exact ⟨rfl, (check_positive_ofUInt64 zero _).mp hcheck⟩

/-! ### Coefficients -/

/-- An integer is one or more exactly when its binary64 is. -/
theorem atLeastOne_iff (n : Number) : n.AtLeastOne ↔ Binary64.one.value ≤ n.toReal.value := by
  cases n with
  | real x => exact Iff.rfl
  | integer i =>
      have hone : Binary64.one = WordInteger.toReal ⟨1, by decide, by decide⟩ := rfl
      have hzero : (WordInteger.toReal ⟨0, by decide, by decide⟩).value = 0 := by decide +kernel
      constructor
      · intro hi
        rw [hone]
        exact WordInteger.value_toReal_mono hi
      · intro hi
        by_contra hless
        have hle : i.toReal.value ≤ 0 := by
          rw [← hzero]
          exact WordInteger.value_toReal_mono (Int.lt_add_one_iff.mp (Int.not_le.mp hless))
        have hpos : 0 < Decimal.unitsPerOne := Decimal.twoPow_pos 1074
        rw [Decimal.value_one] at hi
        exact absurd (Int.le_trans hi hle) (by omega)

theorem agrees_coefficient :
    AgreesOr (fun o => Check.coefficient o = none) ReadAs.real Spelling.coefficient := by
  refine ⟨rfl, rfl, ?_⟩
  intro v x _
  cases v <;> simp [Spelling.coefficient, Check.coefficient, Check.optional, ReadAs.real,
    Json.real?, atLeastOne_iff, eq_comm]

end Document

end FlowGraph
