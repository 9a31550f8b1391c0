import FlowGraph.Activity.Condition
import FlowGraph.Proofs.Json.Equality
import Mathlib.Logic.ExistsUnique

/-!
# The operations of a condition agree with each other

Each question has an opposite, and the questions about order, equality and the parts of
a text do not contradict each other.  Equality and order are decided by different rules,
which have to meet: of two numbers or two strings, neither is below the other exactly
when they are loosely equal.

Main results:

- Theorem `Json.looselyEqual_equivalence`: loose equality is an equivalence.
- Theorem `Json.Comparable.exists_order`: two numbers or two strings have an order, which
  is that of equals exactly when they are loosely equal.
- Theorem `Condition.operations_coherent`: the laws of the fourteen operations.
-/

namespace FlowGraph

namespace Json

variable {a b : Json}

/-! ## Loose equality -/

/-- The normal form for loose equality.  A number becomes its binary64; the numbers inside
an array or an object keep their kinds. -/
def looseForm : Json → Json
  | .number n => .number (.real n.toReal.signless)
  | v => v.signless

/-- Values are loosely equal if they have one normal form. -/
theorem looselyEqual_iff (a b : Json) : a.looselyEqual b = true ↔ a.looseForm = b.looseForm := by
  cases a with
  | number m =>
      cases b with
      | number n => simp [looselyEqual, real?, looseForm, Decimal.Binary64.sameValue_iff]
      | _ => simp [looselyEqual, real?, looseForm, same, signless]
  | _ =>
      -- Without two numbers, the values are compared as written.
      rw [show looselyEqual _ b = same _ b from rfl, same_iff]
      cases b <;> simp [looseForm, signless]

/-- Loose equality is an equivalence, on nested values too. -/
theorem looselyEqual_equivalence : Equivalence fun a b : Json => a.looselyEqual b = true where
  refl a := (looselyEqual_iff a a).mpr rfl
  symm {a b} h := by
    rw [looselyEqual_iff] at h ⊢
    exact h.symm
  trans {a b c} h h' := by
    rw [looselyEqual_iff] at h h' ⊢
    exact h.trans h'

/-! ## Order -/

/-- Two numbers or two strings. -/
def Comparable (a b : Json) : Prop :=
  (∃ m n, a = .number m ∧ b = .number n) ∨ ∃ s t, a = .string s ∧ b = .string t

/-- Two numbers or two strings have an order, which is that of equals exactly when they
are loosely equal. -/
theorem Comparable.exists_order (h : a.Comparable b) :
    ∃ order, a.order? b = some order ∧ (order = .eq ↔ a.looselyEqual b = true) := by
  rcases h with ⟨m, n, rfl, rfl⟩ | ⟨s, t, rfl, rfl⟩
  · refine ⟨m.toReal.order n.toReal, rfl, ?_⟩
    rw [Decimal.Binary64.order, Std.compare_eq_iff_eq]
    exact beq_iff_eq.symm
  · refine ⟨compare s t, rfl, ?_⟩
    rw [Std.compare_eq_iff_eq]
    exact beq_iff_eq.symm

/-- Other values have no order. -/
theorem order?_of_not_comparable (h : ¬ a.Comparable b) : a.order? b = none := by
  cases a with
  | number m =>
      cases b with
      | number n => exact absurd (.inl ⟨m, n, rfl, rfl⟩) h
      | _ => rfl
  | string s =>
      cases b with
      | string t => exact absurd (.inr ⟨s, t, rfl, rfl⟩) h
      | _ => rfl
  | _ => cases b <;> rfl

/-! ## Parts of a text -/

/-- A row of characters occurs in another one if it is an infix of it. -/
theorem occursIn_iff {needle cs : List Char} : occursIn needle cs = true ↔ needle <:+: cs := by
  induction cs with
  | nil => simp [occursIn]
  | cons c rest ih => simp [occursIn, ih, List.infix_cons_iff]

/-- A text contains what it starts with. -/
theorem contains_of_startsWith (h : a.startsWith b = true) : a.contains b = true := by
  unfold startsWith at h
  split at h
  · exact occursIn_iff.mpr (List.isPrefixOf_iff_prefix.mp h).isInfix
  · contradiction

/-- A text contains what it ends with. -/
theorem contains_of_endsWith (h : a.endsWith b = true) : a.contains b = true := by
  unfold endsWith at h
  split at h
  · exact occursIn_iff.mpr (List.isSuffixOf_iff_suffix.mp h).isInfix
  · contradiction

end Json

/-! ## The laws of the operations -/

/-- The answers of the fourteen operations to one question agree with each other. -/
structure Operation.Coherent (answer : Operation → Bool) (comparable : Prop) : Prop where
  notEquals : answer .notEquals = !answer .equals
  notContains : answer .notContains = !answer .contains
  absent : answer .absent = !answer .present
  isNotEmpty : answer .isNotEmpty = !answer .isEmpty
  /-- Of what can be compared, one is less, or both are equal, or one is greater. -/
  oneOrder : comparable →
    ∃! op, op ∈ [Operation.lessThan, .equals, .greaterThan] ∧ answer op = true
  lessThanOrEqual : comparable →
    answer .lessThanOrEqual = (answer .lessThan || answer .equals)
  greaterThanOrEqual : comparable →
    answer .greaterThanOrEqual = (answer .greaterThan || answer .equals)
  /-- What cannot be compared stands in no order. -/
  noOrder : ¬ comparable →
    ∀ op ∈ [Operation.lessThan, .lessThanOrEqual, .greaterThan, .greaterThanOrEqual],
      answer op = false
  startsWith : answer .startsWith = true → answer .contains = true
  endsWith : answer .endsWith = true → answer .contains = true

namespace Condition

/-- The value is there and can be compared with the expected one. -/
def Comparing (actual : Option Json) (expected : Json) : Prop :=
  ∃ v, actual = some v ∧ v.Comparable expected

/-- What can be compared has an order, off which the five questions about it are read. -/
theorem Comparing.exists_order {actual : Option Json} {expected : Json}
    (h : Comparing actual expected) : ∃ order : Ordering,
      holds .lessThan actual expected = order.isLT ∧
      holds .lessThanOrEqual actual expected = order.isLE ∧
      holds .equals actual expected = order.isEq ∧
      holds .greaterThan actual expected = order.isGT ∧
      holds .greaterThanOrEqual actual expected = order.isGE := by
  obtain ⟨v, rfl, hcomparable⟩ := h
  obtain ⟨order, horder, hequal⟩ := hcomparable.exists_order
  have hequals : v.looselyEqual expected = order.isEq := by
    rw [Bool.eq_iff_iff, ← hequal, Ordering.isEq_iff_eq_eq]
  refine ⟨order, ?_⟩
  simp only [holds, Option.bind_some, Option.any_some, horder, hequals, and_self]

/-- What cannot be compared stands in no order. -/
theorem order_eq_none {actual : Option Json} {expected : Json} (h : ¬ Comparing actual expected) :
    (actual.bind fun v => v.order? expected) = none := by
  cases actual with
  | none => rfl
  | some v => exact Json.order?_of_not_comparable fun hcomparable => h ⟨v, rfl, hcomparable⟩

/-- The answers about one actual value agree with each other. -/
theorem holds_coherent (actual : Option Json) (expected : Json) :
    Operation.Coherent (fun op => holds op actual expected) (Comparing actual expected) where
  notEquals := rfl
  notContains := rfl
  absent := by cases actual <;> rfl
  isNotEmpty := by cases actual <;> simp [holds]
  oneOrder hcomparing := by
    obtain ⟨order, hlt, -, heq, hgt, -⟩ := hcomparing.exists_order
    cases order with
    | lt => exact ⟨.lessThan, by simp [hlt], by simp [heq, hgt]⟩
    | eq => exact ⟨.equals, by simp [heq], by simp [hlt, hgt]⟩
    | gt => exact ⟨.greaterThan, by simp [hgt], by simp [hlt, heq]⟩
  lessThanOrEqual hcomparing := by
    obtain ⟨order, hlt, hle, heq, -, -⟩ := hcomparing.exists_order
    rw [hlt, hle, heq]
    cases order <;> rfl
  greaterThanOrEqual hcomparing := by
    obtain ⟨order, -, -, heq, hgt, hge⟩ := hcomparing.exists_order
    rw [hgt, hge, heq]
    cases order <;> rfl
  noOrder hcomparing := by
    simp [holds, order_eq_none hcomparing]
  startsWith := by
    cases actual with
    | none => exact id
    | some v => exact Json.contains_of_startsWith
  endsWith := by
    cases actual with
    | none => exact id
    | some v => exact Json.contains_of_endsWith

/-- Equality as a condition on a whole payload. -/
def Equals (a b : Json) : Prop := (Condition.mk "" .equals b).evaluate a = true

/-- The answers to the fourteen operations about one field and one value agree with each
other, whether the field is there or not.  Equality asks for a field that is there and
equals the value, and it is an equivalence of all values. -/
theorem operations_coherent :
    (∀ payload field value,
      Operation.Coherent (fun op => (Condition.mk field op value).evaluate payload)
        (Comparing (FieldPath.resolve payload field) value)) ∧
    (∀ payload field value, (Condition.mk field .equals value).evaluate payload = true ↔
      ∃ actual, FieldPath.resolve payload field = some actual ∧ Equals actual value) ∧
    Equivalence Equals := by
  refine ⟨?_, ?_, Json.looselyEqual_equivalence⟩
  · intro payload field value
    exact holds_coherent (FieldPath.resolve payload field) value
  · intro payload field value
    exact Option.any_eq_true _ _

/-- A count of 3 stands in one order to 2.0, and a name that starts with a text contains it. -/
theorem operations_coherent_sample :
    let payload : Json := .ofPairs [("count", .ofUInt64 3), ("name", .string "twiddle")]
    let limit : Json := .number (.real .two)
    Comparing (FieldPath.resolve payload "count") limit ∧
      (∃! op, op ∈ [Operation.lessThan, .equals, .greaterThan] ∧
        (Condition.mk "count" op limit).evaluate payload = true) ∧
      (Condition.mk "name" .startsWith (.string "twi")).evaluate payload = true ∧
      (Condition.mk "name" .contains (.string "twi")).evaluate payload = true := by
  intro payload limit
  have hcomparing : Comparing (FieldPath.resolve payload "count") limit :=
    ⟨_, rfl, .inl ⟨_, _, rfl, rfl⟩⟩
  have hstarts : (Condition.mk "name" .startsWith (.string "twi")).evaluate payload = true := by
    decide +kernel
  obtain ⟨hcoherent, -⟩ := operations_coherent
  exact ⟨hcomparing, (hcoherent payload "count" limit).oneOrder hcomparing, hstarts,
    (hcoherent payload "name" (.string "twi")).startsWith hstarts⟩

end Condition

end FlowGraph
