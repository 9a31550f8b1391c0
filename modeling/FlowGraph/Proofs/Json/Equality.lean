import FlowGraph.Json.Basic

/-!
# Equality of JSON values

Two reals of one value differ at most in the sign of a zero.  So each value has a
normal form, in which no zero has a sign, and equality of values is equality of their
normal forms.

Main results:

- Theorem `Binary64.sameValue_iff`: reals of one value are equal without the signs of
  zeros.
- Theorem `Json.same_iff`: values are the same if they have one normal form.
-/

namespace FlowGraph

/-! ## Numbers -/

namespace Decimal.Binary64

/-- The number, with a plus before a zero. -/
def signless (x : Binary64) : Binary64 := { x with negative := x.negative && x.units != 0 }

/-- Reals of one value are equal without the signs of zeros. -/
theorem sameValue_iff (x y : Binary64) : x.sameValue y = true ↔ x.signless = y.signless := by
  obtain ⟨negative, units, _⟩ := x
  obtain ⟨negative', units', _⟩ := y
  rw [sameValue, beq_iff_eq]
  simp only [value, signless, mk.injEq]
  constructor
  · intro hvalue
    have hunits : units = units' := by
      split at hvalue <;> split at hvalue <;> omega
    subst hunits
    -- Of one magnitude, two signs give one value at zero only.
    by_cases hzero : units = 0
    · simp [hzero]
    · cases negative <;> cases negative' <;> simp at hvalue ⊢ <;> omega
  · rintro ⟨hnegative, rfl⟩
    by_cases hzero : units = 0
    · simp [hzero]
    · have hsign : (units != 0) = true := by simpa using hzero
      rw [hsign, Bool.and_true, Bool.and_true] at hnegative
      rw [hnegative]

end Decimal.Binary64

/-- The number, with a plus before a zero. -/
def Number.signless : Number → Number
  | .integer i => .integer i
  | .real x => .real x.signless

/-- Numbers of one kind and value are equal without the signs of zeros. -/
theorem Number.same_iff (m n : Number) : m.same n = true ↔ m.signless = n.signless := by
  cases m with
  | integer i =>
      cases n with
      | integer j =>
          obtain ⟨i, _, _⟩ := i
          obtain ⟨j, _, _⟩ := j
          simp [same, signless]
      | real y => simp [same, signless]
  | real x =>
      cases n with
      | integer j => simp [same, signless]
      | real y => simp [same, signless, Decimal.Binary64.sameValue_iff]

/-! ## Values -/

namespace Json

mutual

/-- The value with a plus before every zero in it. -/
def signless : Json → Json
  | .number n => .number n.signless
  | .array items => .array (signlessItems items)
  | .object members => .object (signlessMembers members)
  | v => v

/-- The items with a plus before every zero in them. -/
def signlessItems : List Json → List Json
  | [] => []
  | v :: rest => v.signless :: signlessItems rest

/-- The members with a plus before every zero in them. -/
def signlessMembers : List (String × Json) → List (String × Json)
  | [] => []
  | (key, v) :: rest => (key, v.signless) :: signlessMembers rest

end

mutual

/-- Values are the same if they have one normal form. -/
theorem same_iff (a b : Json) : a.same b = true ↔ a.signless = b.signless := by
  cases a with
  | null => cases b <;> simp [same, signless]
  | bool _ => cases b <;> simp [same, signless]
  | number m => cases b <;> simp [same, signless, Number.same_iff m]
  | string _ => cases b <;> simp [same, signless]
  | array items => cases b <;> simp [same, signless, sameItems_iff items]
  | object members => cases b <;> simp [same, signless, sameMembers_iff members]

theorem sameItems_iff (xs ys : List Json) :
    sameItems xs ys = true ↔ signlessItems xs = signlessItems ys := by
  cases xs with
  | nil => cases ys <;> simp [sameItems, signlessItems]
  | cons x xs =>
      cases ys with
      | nil => simp [sameItems, signlessItems]
      | cons y ys => simp [sameItems, signlessItems, same_iff x y, sameItems_iff xs ys]

theorem sameMembers_iff (xs ys : List (String × Json)) :
    sameMembers xs ys = true ↔ signlessMembers xs = signlessMembers ys := by
  cases xs with
  | nil => cases ys <;> simp [sameMembers, signlessMembers]
  | cons x xs =>
      obtain ⟨key, v⟩ := x
      cases ys with
      | nil => simp [sameMembers, signlessMembers]
      | cons y ys =>
          obtain ⟨other, w⟩ := y
          simp [sameMembers, signlessMembers, same_iff v w, sameMembers_iff xs ys]

end

end Json

end FlowGraph
