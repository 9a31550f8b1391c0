import FlowGraph.Activity.Builtin
import FlowGraph.Proofs.Json.Integer

/-!
# Integers in conditions

Conditions, array items and the cases of a switch compare integers through their nearest
binary64.  They compare by value as long as rounding keeps the integers apart; merged
integers count as equal.

Main results:

- Theorem `Json.looselyEqual_integer_iff`: what loosely equals an integer.
- Theorem `Json.order?_integer`: the order in which a condition puts two integers.
- Theorem `Condition.comparing_iff`: what each comparison of integers answers, and which
  integers it can get wrong.
-/

namespace FlowGraph

namespace Json

/-- A JSON integer. -/
def ofInteger (i : WordInteger) : Json := .number (.integer i)

/-- Integers are loosely equal if they are equal, or merge. -/
theorem looselyEqual_integer (a b : WordInteger) :
    (ofInteger a).looselyEqual (ofInteger b) = true ↔ a.val = b.val ∨ a.Merged b := by
  rw [← WordInteger.value_toReal_eq_iff]
  exact beq_iff_eq

/-- A real is loosely equal to an integer if it has the value of its nearest binary64. -/
theorem looselyEqual_real (x : Decimal.Binary64) (b : WordInteger) :
    (Json.number (.real x)).looselyEqual (ofInteger b) = true ↔ x.value = b.toReal.value :=
  beq_iff_eq

/-- Only numbers are loosely equal to an integer. -/
theorem looselyEqual_integer_iff (item : Json) (b : WordInteger) :
    item.looselyEqual (ofInteger b) = true ↔
      (∃ a, item = ofInteger a ∧ (a.val = b.val ∨ a.Merged b)) ∨
        ∃ x, item = .number (.real x) ∧ x.value = b.toReal.value := by
  constructor
  · intro hequal
    cases item with
    | number n =>
        cases n with
        | integer a => exact .inl ⟨a, rfl, (looselyEqual_integer a b).mp hequal⟩
        | real x => exact .inr ⟨x, rfl, (looselyEqual_real x b).mp hequal⟩
    | null => exact absurd hequal (by simp [ofInteger, looselyEqual, real?, same])
    | bool _ => exact absurd hequal (by simp [ofInteger, looselyEqual, real?, same])
    | string _ => exact absurd hequal (by simp [ofInteger, looselyEqual, real?, same])
    | array _ => exact absurd hequal (by simp [ofInteger, looselyEqual, real?, same])
    | object _ => exact absurd hequal (by simp [ofInteger, looselyEqual, real?, same])
  · rintro (⟨a, rfl, hvalue⟩ | ⟨x, rfl, hvalue⟩)
    · exact (looselyEqual_integer a b).mpr hvalue
    · exact (looselyEqual_real x b).mpr hvalue

/-- Integers stand in their order, unless they merge. -/
theorem order?_integer (a b : WordInteger) :
    (ofInteger a).order? (ofInteger b) =
      some (if a.Merged b then .eq else compare a.val b.val) := by
  rw [← WordInteger.order_toReal]
  rfl

/-- An array contains an integer if an item is loosely equal to it. -/
theorem array_contains_integer_iff (items : List Json) (b : WordInteger) :
    (Json.array items).contains (ofInteger b) = true ↔
      (∃ a, ofInteger a ∈ items ∧ (a.val = b.val ∨ a.Merged b)) ∨
        ∃ x, .number (.real x) ∈ items ∧ x.value = b.toReal.value := by
  simp only [contains, List.any_eq_true, looselyEqual_integer_iff]
  constructor
  · rintro ⟨item, hmem, ⟨a, rfl, hvalue⟩ | ⟨x, rfl, hvalue⟩⟩
    · exact .inl ⟨a, hmem, hvalue⟩
    · exact .inr ⟨x, hmem, hvalue⟩
  · rintro (⟨a, hmem, hvalue⟩ | ⟨x, hmem, hvalue⟩)
    · exact ⟨_, hmem, .inl ⟨a, rfl, hvalue⟩⟩
    · exact ⟨_, hmem, .inr ⟨x, rfl, hvalue⟩⟩

end Json

/-- A case of a switch with an integer takes this integer, and the ones it merges with. -/
theorem Builtin.matchingCase_integer (a : WordInteger) {b : WordInteger} {case : Json}
    {output : String} (rest : List Json) (houtput : case.member? "output" = some (.string output))
    (hvalue : case.member? "value" = some (.ofInteger b)) :
    matchingCase (some (.ofInteger a)) (case :: rest) =
      if a.val = b.val ∨ a.Merged b then .ok (some output)
      else matchingCase (some (.ofInteger a)) rest := by
  simp only [matchingCase, houtput, hvalue, Option.bind_some, Json.string?, Option.any_some,
    Option.getD_some, Json.looselyEqual_integer]

namespace Condition

/-- The condition that compares a field with an integer. -/
def comparing (field : String) (operation : Operation) (b : WordInteger) : Condition :=
  ⟨field, operation, .ofInteger b⟩

/-- Integers that do not merge compare by value. -/
theorem holds_of_apart {a b : WordInteger} (hapart : ¬ a.Merged b) :
    (holds .equals (some (.ofInteger a)) (.ofInteger b) ↔ a.val = b.val) ∧
      (holds .notEquals (some (.ofInteger a)) (.ofInteger b) ↔ a.val ≠ b.val) ∧
      (holds .greaterThan (some (.ofInteger a)) (.ofInteger b) ↔ b.val < a.val) ∧
      (holds .greaterThanOrEqual (some (.ofInteger a)) (.ofInteger b) ↔ b.val ≤ a.val) ∧
      (holds .lessThan (some (.ofInteger a)) (.ofInteger b) ↔ a.val < b.val) ∧
      (holds .lessThanOrEqual (some (.ofInteger a)) (.ofInteger b) ↔ a.val ≤ b.val) := by
  have hequal : (Json.ofInteger a).looselyEqual (.ofInteger b) = true ↔ a.val = b.val := by
    rw [Json.looselyEqual_integer, or_iff_left hapart]
  have horder : (Json.ofInteger a).order? (.ofInteger b) = some (compare a.val b.val) := by
    rw [Json.order?_integer, if_neg hapart]
  simp only [holds, Option.any_some, Option.bind_some, horder]
  refine ⟨hequal, ?_, ?_, Int.isGE_compare, ?_, Int.isLE_compare⟩
  · rw [Bool.not_eq_true', ← Bool.not_eq_true, hequal]
  · rw [Ordering.isGT_iff_eq_gt, compare_gt_iff_gt]
  · rw [Ordering.isLT_iff_eq_lt, compare_lt_iff_lt]

/-- Merged integers compare as equal. -/
theorem holds_of_merged {a b : WordInteger} (hmerged : a.Merged b) :
    holds .equals (some (.ofInteger a)) (.ofInteger b) = true ∧
      holds .notEquals (some (.ofInteger a)) (.ofInteger b) = false ∧
      holds .greaterThan (some (.ofInteger a)) (.ofInteger b) = false ∧
      holds .greaterThanOrEqual (some (.ofInteger a)) (.ofInteger b) = true ∧
      holds .lessThan (some (.ofInteger a)) (.ofInteger b) = false ∧
      holds .lessThanOrEqual (some (.ofInteger a)) (.ofInteger b) = true := by
  have hequal : (Json.ofInteger a).looselyEqual (.ofInteger b) = true :=
    (Json.looselyEqual_integer a b).mpr (.inr hmerged)
  have horder : (Json.ofInteger a).order? (.ofInteger b) = some .eq := by
    rw [Json.order?_integer, if_pos hmerged]
  simp only [holds, Option.any_some, Option.bind_some, hequal, horder]
  decide

/-- A comparison of integers is decided by their values if they do not merge, and as for
equal integers if they do.  The same holds for the items of an array and for the cases of
a switch.  Integers that merge are at least `2⁵³` in magnitude and at most 2048 apart. -/
theorem comparing_iff (a b : WordInteger) :
    (∀ payload field, FieldPath.resolve payload field = some (.ofInteger a) →
      ((comparing field .equals b).evaluate payload ↔ a.val = b.val ∨ a.Merged b) ∧
      ((comparing field .notEquals b).evaluate payload ↔ a.val ≠ b.val ∧ ¬ a.Merged b) ∧
      ((comparing field .greaterThan b).evaluate payload ↔ b.val < a.val ∧ ¬ a.Merged b) ∧
      ((comparing field .greaterThanOrEqual b).evaluate payload ↔
        b.val ≤ a.val ∨ a.Merged b) ∧
      ((comparing field .lessThan b).evaluate payload ↔ a.val < b.val ∧ ¬ a.Merged b) ∧
      ((comparing field .lessThanOrEqual b).evaluate payload ↔
        a.val ≤ b.val ∨ a.Merged b)) ∧
    (∀ payload field items, FieldPath.resolve payload field = some (.array items) →
      ((comparing field .contains b).evaluate payload ↔
        (∃ c, .ofInteger c ∈ items ∧ (c.val = b.val ∨ c.Merged b)) ∨
          ∃ x, .number (.real x) ∈ items ∧ x.value = b.toReal.value)) ∧
    (∀ case output rest, case.member? "output" = some (.string output) →
      case.member? "value" = some (.ofInteger b) →
      Builtin.matchingCase (some (.ofInteger a)) (case :: rest) =
        if a.val = b.val ∨ a.Merged b then .ok (some output)
        else Builtin.matchingCase (some (.ofInteger a)) rest) ∧
    (a.Merged b →
      2 ^ 53 ≤ a.val.natAbs ∧ 2 ^ 53 ≤ b.val.natAbs ∧ (a.val - b.val).natAbs ≤ 2048) := by
  refine ⟨?_, ?_, ?_, fun hmerged => ⟨hmerged.far, hmerged.symm.far, hmerged.near⟩⟩
  · intro payload field hfield
    simp only [evaluate, comparing, hfield]
    by_cases hmerged : a.Merged b
    · simp only [holds_of_merged hmerged, hmerged, or_true, not_true_eq_false, and_false,
        Bool.false_eq_true, and_self]
    · simp only [holds_of_apart hmerged, hmerged, or_false, not_false_eq_true, and_true, and_self]
  · intro payload field items hfield
    rw [evaluate, comparing, hfield]
    exact Json.array_contains_integer_iff items b
  · intro case output rest houtput hvalue
    exact Builtin.matchingCase_integer a rest houtput hvalue

/-- A count of 200 is more than 3 and not 3, for a condition and for a switch. -/
theorem comparing_iff_count :
    let count : WordInteger := ⟨200, by decide, by decide⟩
    let limit : WordInteger := ⟨3, by decide, by decide⟩
    let payload : Json := .ofPairs [("count", .ofInteger count)]
    (comparing "count" .greaterThan limit).evaluate payload ∧
      ¬ (comparing "count" .equals limit).evaluate payload ∧
      (comparing "counts" .contains limit).evaluate
        (.ofPairs [("counts", .array [.ofInteger count, .ofInteger limit])]) ∧
      Builtin.matchingCase (some (.ofInteger count))
        [.object [("output", .string "few"), ("value", .ofInteger limit)]] = .ok none := by
  intro count limit payload
  have happart : ¬ count.Merged limit := by decide +kernel
  obtain ⟨hcompares, hcontains, hcase, -⟩ := comparing_iff count limit
  have hcount := hcompares payload "count" rfl
  refine ⟨hcount.2.2.1.mpr ⟨by decide, happart⟩, ?_, ?_, ?_⟩
  · intro hequal
    exact (hcount.1.mp hequal).elim (by decide) happart
  · exact (hcontains _ "counts" [.ofInteger count, .ofInteger limit] rfl).mpr
      (.inl ⟨limit, List.mem_cons_of_mem _ List.mem_cons_self, .inl rfl⟩)
  · have hfew := hcase (.object [("output", .string "few"), ("value", .ofInteger limit)]) "few" []
      rfl rfl
    rw [hfew, if_neg (by decide +kernel)]
    rfl

/-- `2⁵³` and its successor merge: a condition, an array and a switch take them for one. -/
theorem comparing_adjacent :
    let a : WordInteger := ⟨9007199254740992, by decide, by decide⟩
    let b : WordInteger := ⟨9007199254740993, by decide, by decide⟩
    a.val < b.val ∧
      (comparing "v" .equals b).evaluate (.ofPairs [("v", .ofInteger a)]) = true ∧
      (comparing "v" .lessThan b).evaluate (.ofPairs [("v", .ofInteger a)]) = false ∧
      (comparing "v" .greaterThanOrEqual b).evaluate (.ofPairs [("v", .ofInteger a)]) = true ∧
      (comparing "v" .contains b).evaluate
        (.ofPairs [("v", .array [.ofInteger a])]) = true ∧
      Builtin.matchingCase (some (.ofInteger a))
        [.object [("output", .string "large"), ("value", .ofInteger b)]] =
          .ok (some "large") := by
  intro a b
  have hmerged : a.Merged b := by decide +kernel
  refine ⟨by decide, by decide +kernel, by decide +kernel, by decide +kernel,
    by decide +kernel, ?_⟩
  rw [Builtin.matchingCase_integer a (b := b) [] rfl rfl, if_pos (.inr hmerged)]

end Condition

end FlowGraph
