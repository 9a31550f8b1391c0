import FlowGraph.Decimal.Binary64

/-!
# JSON values

A JSON value tells integers from other numbers: an integer literal in the range of an unsigned or
a signed 64-bit word stays exact, every other number is a binary64.  The members of an object are
kept in the order of their names, each name once, so two objects with the same members are the
same list.

Main results:

- Theorem `Members.lookup_put`: a write is read back, and other names keep their values.
- Theorem `Members.ordered_put`: a write keeps the members ordered.
- Theorem `Members.lookup_without`: a removed name is not found, and other names keep their values.
-/

namespace FlowGraph

open Decimal (Binary64)

/-! ## Numbers -/

/-- An integer that an unsigned or a signed 64-bit word holds. -/
structure WordInteger where
  val : Int
  low : -0x8000000000000000 ≤ val
  high : val < 0x10000000000000000
deriving DecidableEq

namespace WordInteger

/-- The integer, if a word holds it. -/
def ofInt? (i : Int) : Option WordInteger :=
  if h : -0x8000000000000000 ≤ i ∧ i < 0x10000000000000000 then some ⟨i, h.1, h.2⟩ else none

/-- An unsigned word as an integer. -/
def ofUInt64 (n : UInt64) : WordInteger where
  val := n.toNat
  low := by omega
  high := by have := n.toNat_lt; omega

/-- The unsigned word, unless the integer is negative. -/
def toUInt64? (i : WordInteger) : Option UInt64 :=
  if 0 ≤ i.val then some (UInt64.ofNat i.val.toNat) else none

/-- The nearest binary64. -/
def toReal (i : WordInteger) : Binary64 :=
  .ofMagnitude (decide (i.val < 0)) i.val.natAbs (by have := i.low; have := i.high; omega)

@[simp]
theorem toUInt64?_ofUInt64 (n : UInt64) : (ofUInt64 n).toUInt64? = some n := by
  simp [toUInt64?, ofUInt64]

end WordInteger

/-- A JSON number. -/
inductive Number where
  | integer (i : WordInteger)
  | real (x : Binary64)
deriving DecidableEq

namespace Number

/-- The number as a binary64, integers rounded. -/
def toReal : Number → Binary64
  | .integer i => i.toReal
  | .real x => x

/-- The unsigned word of a non-negative integer. -/
def toUInt64? : Number → Option UInt64
  | .integer i => i.toUInt64?
  | .real _ => none

/-- An unsigned word as a number. -/
def ofUInt64 (n : UInt64) : Number := .integer (.ofUInt64 n)

/-- Equality of one kind of number: an integer never equals a real, and the two zeros of the
reals are equal. -/
def same : Number → Number → Bool
  | .integer i, .integer j => i.val == j.val
  | .real x, .real y => x.sameValue y
  | _, _ => false

@[simp]
theorem toUInt64?_ofUInt64 (n : UInt64) : (ofUInt64 n).toUInt64? = some n := by
  simp [ofUInt64, toUInt64?]

end Number

/-! ## Values -/

/-- A JSON value. -/
inductive Json where
  | null
  | bool (b : Bool)
  | number (n : Number)
  | string (s : String)
  | array (items : List Json)
  | object (members : List (String × Json))

/-- The members of an object. -/
abbrev Members := List (String × Json)

namespace Members

/-- Each name is below the next. -/
def Ordered (members : Members) : Prop := members.Pairwise fun a b => a.1 < b.1

/-- Write a member, replacing one of the same name. -/
def put (key : String) (value : Json) : Members → Members
  | [] => [(key, value)]
  | (k, v) :: rest =>
    if key = k then (key, value) :: rest
    else if key < k then (key, value) :: (k, v) :: rest
    else (k, v) :: put key value rest

/-- Remove a member. -/
def without (key : String) (members : Members) : Members :=
  members.filter fun m => !(m.1 == key)

/-- Write several members in turn. -/
def putAll (members : Members) (written : Members) : Members :=
  written.foldl (fun ms m => ms.put m.1 m.2) members

/-- The object members written by a list of pairs; the last one of a name wins. -/
def ofList (pairs : List (String × Json)) : Members := putAll [] pairs

/-- A look-up takes the first member of the name. -/
theorem lookup_cons (name key : String) (value : Json) (rest : Members) :
    List.lookup name ((key, value) :: rest) =
      if name = key then some value else rest.lookup name := by
  by_cases h : name = key
  · subst h; simp
  · have differ : (name == key) = false := beq_eq_false_iff_ne.2 h
    simp [List.lookup_cons, h, differ]

/-- A write is read back, and every other name keeps its value. -/
theorem lookup_put (key name : String) (value : Json) (members : Members) :
    (members.put key value).lookup name =
      if name = key then some value else members.lookup name := by
  induction members with
  | nil => simp [put, lookup_cons]
  | cons m rest ih =>
    obtain ⟨k, v⟩ := m
    simp only [put]
    split
    · next same => subst same; simp only [lookup_cons]; split <;> simp_all
    · next other =>
      split
      · rw [lookup_cons]
      · rw [lookup_cons, lookup_cons, ih]
        by_cases h : name = k
        · subst h; simp [Ne.symm other]
        · simp [h]

theorem mem_put {key : String} {value : Json} {members : Members} {m : String × Json}
    (h : m ∈ members.put key value) : m = (key, value) ∨ m ∈ members := by
  induction members with
  | nil => simp_all [put]
  | cons head rest ih =>
    obtain ⟨k, v⟩ := head
    simp only [put] at h
    grind

/-- A write keeps the members ordered. -/
theorem ordered_put {members : Members} (h : members.Ordered) (key : String) (value : Json) :
    (members.put key value).Ordered := by
  induction members with
  | nil => simp [put, Ordered]
  | cons m rest ih =>
    obtain ⟨k, v⟩ := m
    have tail : Ordered rest := (List.pairwise_cons.1 h).2
    have head := (List.pairwise_cons.1 h).1
    simp only [put]
    split
    · next same => subst same; exact List.pairwise_cons.2 ⟨head, tail⟩
    · next other =>
      split
      · next below =>
        refine List.pairwise_cons.2 ⟨fun b hb => ?_, h⟩
        rcases List.mem_cons.1 hb with rfl | hb
        · exact below
        · exact String.lt_trans below (head b hb)
      · next notBelow =>
        refine List.pairwise_cons.2 ⟨fun b hb => ?_, ih tail⟩
        rcases mem_put hb with rfl | hb
        · exact Std.lt_of_le_of_ne (String.not_lt.1 notBelow) (Ne.symm other)
        · exact head b hb

/-- A removed name is not found, and every other name keeps its value. -/
theorem lookup_without (members : Members) (key name : String) :
    (members.without key).lookup name = if name = key then none else members.lookup name := by
  induction members with
  | nil => simp [without]
  | cons m rest ih =>
    obtain ⟨k, v⟩ := m
    have unfolded : without key ((k, v) :: rest) =
        if k = key then without key rest else (k, v) :: without key rest := by
      unfold without
      rw [List.filter_cons]
      by_cases same : k = key <;> simp [same]
    rw [unfolded, lookup_cons]
    split
    · next same =>
      rw [ih]
      by_cases h : name = key
      · rw [if_pos h, if_pos h]
      · rw [if_neg h, if_neg h, if_neg (same ▸ h)]
    · next other =>
      rw [lookup_cons, ih]
      by_cases h : name = key
      · subst h
        rw [if_neg (Ne.symm other), if_pos rfl, if_pos rfl]
      · rw [if_neg h, if_neg h]

/-- Removing a name keeps the members ordered. -/
theorem ordered_without {members : Members} (h : members.Ordered) (key : String) :
    (members.without key).Ordered :=
  List.Pairwise.filter _ h

end Members

namespace Json

/-- The empty object. -/
def emptyObject : Json := .object []

/-- An object written from pairs. -/
def ofPairs (pairs : List (String × Json)) : Json := .object (Members.ofList pairs)

/-- An unsigned word. -/
def ofUInt64 (n : UInt64) : Json := .number (.ofUInt64 n)

/-- The text of a string value. -/
def string? : Json → Option String
  | .string s => some s
  | _ => none

/-- The truth of a boolean value. -/
def bool? : Json → Option Bool
  | .bool b => some b
  | _ => none

/-- The members of an object value. -/
def object? : Json → Option Members
  | .object members => some members
  | _ => none

/-- The items of an array value. -/
def array? : Json → Option (List Json)
  | .array items => some items
  | _ => none

/-- A number as a binary64. -/
def real? : Json → Option Binary64
  | .number n => some n.toReal
  | _ => none

/-- A non-negative integer in the range of an unsigned 64-bit word. -/
def uint64? : Json → Option UInt64
  | .number n => n.toUInt64?
  | _ => none

/-- Whether the value is null. -/
def isNull : Json → Bool
  | .null => true
  | _ => false

/-- A member of an object value. -/
def member? (key : String) : Json → Option Json
  | .object members => members.lookup key
  | _ => none

mutual

/-- Equality of values, number by number as `Number.same` says. -/
def same : Json → Json → Bool
  | .null, .null => true
  | .bool a, .bool b => a == b
  | .number a, .number b => a.same b
  | .string a, .string b => a == b
  | .array xs, .array ys => sameItems xs ys
  | .object xs, .object ys => sameMembers xs ys
  | _, _ => false

/-- Equality of item lists. -/
def sameItems : List Json → List Json → Bool
  | [], [] => true
  | x :: xs, y :: ys => same x y && sameItems xs ys
  | _, _ => false

/-- Equality of member lists. -/
def sameMembers : List (String × Json) → List (String × Json) → Bool
  | [], [] => true
  | (k, x) :: xs, (l, y) :: ys => k == l && same x y && sameMembers xs ys
  | _, _ => false

end

end Json

end FlowGraph
