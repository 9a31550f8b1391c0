import FlowGraph.Program.Identifier
import FlowGraph.Proofs.Grouping
import FlowGraph.Proofs.Lookup
import Std.Data.String.ToNat
import Mathlib.Data.List.Nodup
import Mathlib.Data.Finset.Card
import Mathlib.Order.Interval.Finset.Nat

/-!
# Distinct names

Keys are named in turn, each by the first candidate of its base that no earlier
key has.  The candidates of a base are distinct, so that more of them than names
are taken cannot all be taken: the search for a free one always finds it.

Main results:

- Theorem `fresh_not_mem`: a name found for a key is not taken.
- Theorem `fresh_eq_candidate`: it is the first candidate that is not taken.
- Theorem `nodup_names_assign`: different keys have different names.
- Theorem `firstFree_of_assign_eq`: how far the search for a name goes.
- Theorem `take_assign`: the names of the first keys do not depend on later ones.
- Theorem `exists_lookup_assign`: every key has a name.
-/

namespace FlowGraph.Program

/-! ## Candidates -/

/-- A numbered text determines its number. -/
theorem append_toString_injective (text : String) {i j : Nat}
    (h : text ++ toString i = text ++ toString j) : i = j := by
  have hchars := congrArg String.toList h
  rw [String.toList_append, String.toList_append] at hchars
  exact Nat.repr_inj.mp (String.toList_injective (List.append_cancel_left hchars))

/-- A base is none of the candidates numbered from two on. -/
theorem base_ne_numbered (base : String) (number : Nat) :
    base ≠ base ++ "_" ++ toString number := by
  intro h
  have hlength := congrArg String.length h
  rw [String.length_append, String.length_append] at hlength
  have hunderscore : "_".length = 1 := rfl
  omega

/-- Different numbers give different candidates. -/
theorem candidate_injective {base : String} {i j : Nat} (hi : 1 ≤ i) (hj : 1 ≤ j)
    (h : candidate base i = candidate base j) : i = j := by
  unfold candidate at h
  split at h <;> split at h
  · omega
  · exact absurd h (base_ne_numbered base j)
  · exact absurd h.symm (base_ne_numbered base i)
  · exact append_toString_injective _ h

/-- The search ends with a taken candidate only when all that it may look at are
taken. -/
theorem candidate_mem_of_freshFrom_mem {taken : List String} {base : String} {number fuel : Nat}
    (h : freshFrom taken base number fuel ∈ taken) {k : Nat} (hlow : number ≤ k)
    (hhigh : k ≤ number + fuel) : candidate base k ∈ taken := by
  induction fuel generalizing number with
  | zero =>
      obtain rfl : number = k := by omega
      exact h
  | succ fuel ih =>
      unfold freshFrom at h
      split at h
      next htaken =>
        rcases Nat.eq_or_lt_of_le hlow with rfl | hlow
        · exact List.contains_iff_mem.mp htaken
        · exact ih h hlow (by omega)
      next hfree => exact absurd (List.contains_iff_mem.mpr h) hfree

/-- A name found for a key is not taken. -/
theorem fresh_not_mem (taken : List String) (base : String) : fresh taken base ∉ taken := by
  intro h
  -- otherwise one candidate more than names are taken would be taken
  have hsubset : (Finset.Icc 1 (1 + taken.length)).image (candidate base) ⊆ taken.toFinset := by
    intro name hname
    obtain ⟨k, hk, rfl⟩ := Finset.mem_image.mp hname
    obtain ⟨hlow, hhigh⟩ := Finset.mem_Icc.mp hk
    exact List.mem_toFinset.mpr (candidate_mem_of_freshFrom_mem h hlow hhigh)
  have hcard : ((Finset.Icc 1 (1 + taken.length)).image (candidate base)).card =
      taken.length + 1 := by
    rw [Finset.card_image_of_injOn, Nat.card_Icc]
    · omega
    · intro i hi j hj
      exact candidate_injective (Finset.mem_Icc.mp hi).1 (Finset.mem_Icc.mp hj).1
  have hle := (Finset.card_le_card hsubset).trans taken.toFinset_card_le
  omega

/-- The search passes over taken candidates only. -/
theorem freshFrom_eq_candidate (taken : List String) (base : String) (number fuel : Nat) :
    ∃ k, number ≤ k ∧ k ≤ number + fuel ∧ freshFrom taken base number fuel = candidate base k ∧
      ∀ j, number ≤ j → j < k → candidate base j ∈ taken := by
  induction fuel generalizing number with
  | zero => exact ⟨number, Nat.le_refl _, Nat.le_refl _, rfl, fun j _ _ => by omega⟩
  | succ fuel ih =>
      unfold freshFrom
      split
      next htaken =>
        obtain ⟨k, hlow, hhigh, hfresh, hall⟩ := ih (number + 1)
        refine ⟨k, by omega, by omega, hfresh, fun j hj hk => ?_⟩
        rcases Nat.eq_or_lt_of_le hj with rfl | hj
        · exact List.contains_iff_mem.mp htaken
        · exact hall j hj hk
      next => exact ⟨number, Nat.le_refl _, by omega, rfl, fun j _ _ => by omega⟩

/-- The name found for a key is the first candidate that is not taken. -/
theorem fresh_eq_candidate (taken : List String) (base : String) :
    ∃ k, 1 ≤ k ∧ k ≤ taken.length + 1 ∧ fresh taken base = candidate base k ∧
      candidate base k ∉ taken ∧ ∀ j, 1 ≤ j → j < k → candidate base j ∈ taken := by
  obtain ⟨k, hlow, hhigh, hfresh, hall⟩ := freshFrom_eq_candidate taken base 1 taken.length
  refine ⟨k, hlow, by omega, hfresh, ?_, hall⟩
  rw [← hfresh]
  exact fresh_not_mem taken base

/-! ## Names of keys -/

section

variable (base : String → String)

theorem map_fst_assignFrom (taken keys : List String) :
    (assignFrom base taken keys).map Prod.fst = keys := by
  induction keys generalizing taken with
  | nil => rfl
  | cons key rest ih => rw [assignFrom, List.map_cons, ih]

/-- Names are given in the order of the keys. -/
theorem map_fst_assign (keys : List String) : (assign base keys).map Prod.fst = keys :=
  map_fst_assignFrom base [] keys

/-- No name is taken before, and no two are the same. -/
theorem nodup_names_assignFrom (taken keys : List String) :
    (∀ name ∈ (assignFrom base taken keys).map Prod.snd, name ∉ taken) ∧
      ((assignFrom base taken keys).map Prod.snd).Nodup := by
  induction keys generalizing taken with
  | nil => simp [assignFrom]
  | cons key rest ih =>
      obtain ⟨hfresh, hnodup⟩ := ih (fresh taken (base key) :: taken)
      rw [assignFrom, List.map_cons, List.forall_mem_cons, List.nodup_cons]
      refine ⟨⟨fresh_not_mem taken (base key), fun name hname hin => ?_⟩, fun hin => ?_, hnodup⟩
      · exact hfresh name hname (List.mem_cons_of_mem _ hin)
      · exact hfresh _ hin List.mem_cons_self

/-- Different keys have different names. -/
theorem nodup_names_assign (keys : List String) : ((assign base keys).map Prod.snd).Nodup :=
  (nodup_names_assignFrom base [] keys).2

/-- A key is named apart from the keys before it. -/
theorem name_of_assignFrom_eq {taken keys : List String} {before after : List (String × String)}
    {entry : String × String} (h : assignFrom base taken keys = before ++ entry :: after) :
    entry.2 = fresh ((before.map Prod.snd).reverse ++ taken) (base entry.1) := by
  induction before generalizing taken keys with
  | nil =>
      cases keys with
      | nil => contradiction
      | cons key rest =>
          obtain ⟨hentry, -⟩ := List.cons.inj h
          rw [← hentry]
          rfl
  | cons first before ih =>
      cases keys with
      | nil => contradiction
      | cons key rest =>
          obtain ⟨hfirst, hrest⟩ := List.cons.inj h
          rw [ih hrest, ← hfirst, List.map_cons, List.reverse_cons, List.append_assoc]
          rfl

/-- The search for the name of a key ends at the first candidate of its base that no
earlier key has, after no more steps than there are earlier keys. -/
theorem firstFree_of_assign_eq {keys : List String} {before after : List (String × String)}
    {entry : String × String} (h : assign base keys = before ++ entry :: after) :
    ∃ k, 1 ≤ k ∧ k ≤ before.length + 1 ∧ entry.2 = candidate (base entry.1) k ∧
      entry.2 ∉ before.map Prod.snd ∧
      ∀ j, 1 ≤ j → j < k → candidate (base entry.1) j ∈ before.map Prod.snd := by
  have hname : entry.2 = fresh (before.map Prod.snd).reverse (base entry.1) := by
    simpa using name_of_assignFrom_eq base h
  obtain ⟨k, hlow, hhigh, hfresh, hfree, htaken⟩ :=
    fresh_eq_candidate (before.map Prod.snd).reverse (base entry.1)
  simp only [List.mem_reverse, List.length_reverse, List.length_map] at hhigh hfree htaken
  refine ⟨k, hlow, hhigh, hname.trans hfresh, ?_, htaken⟩
  rwa [hname, hfresh]

theorem take_assignFrom (taken keys : List String) (k : Nat) :
    (assignFrom base taken keys).take k = assignFrom base taken (keys.take k) := by
  induction keys generalizing taken k with
  | nil => rw [List.take_nil, assignFrom, List.take_nil]
  | cons key rest ih =>
      cases k with
      | zero => rfl
      | succ k => rw [List.take_succ_cons, assignFrom, assignFrom, List.take_succ_cons, ih]

/-- The names of the first keys do not depend on later ones. -/
theorem take_assign (keys : List String) (k : Nat) :
    (assign base keys).take k = assign base (keys.take k) :=
  take_assignFrom base [] keys k

/-- Every key has a name. -/
theorem exists_lookup_assign {keys : List String} {key : String} (h : key ∈ keys) :
    ∃ name, (assign base keys).lookup key = some name := by
  rw [← Option.isSome_iff_exists, List.lookup_isSome_iff]
  rw [← map_fst_assign base keys] at h
  obtain ⟨entry, hentry, rfl⟩ := List.mem_map.mp h
  exact ⟨entry, hentry, by simp⟩

variable {base}

/-- Keys of the same name are the same. -/
theorem lookup_assign_inj {keys : List String} {a b name : String}
    (ha : (assign base keys).lookup a = some name)
    (hb : (assign base keys).lookup b = some name) : a = b := by
  have hpair := List.inj_on_of_nodup_map (nodup_names_assign base keys)
    (mem_of_lookup_eq_some ha) (mem_of_lookup_eq_some hb) rfl
  exact congrArg Prod.fst hpair

end

end FlowGraph.Program
