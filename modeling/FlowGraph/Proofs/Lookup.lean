/-!
# Look-ups in lists of pairs

A table is a list of pairs of a key and a value, and a look-up finds the first pair
of a key.  Where the keys are distinct, it finds exactly the pairs of the list.

Main results:

- Theorem `lookup_eq_some_iff_of_nodup`: with distinct keys, a look-up finds exactly
  the pairs of the list.
- Theorem `lookup_map_values`: converting the values of a list converts what is found.
- Theorem `find?_eq_some_of_nodup`: the same for a list whose elements carry their keys.
-/

namespace FlowGraph

variable {α β : Type} {entries : List (String × α)} {key : String} {a : α}

/-- A look-up finds a pair of the list. -/
theorem mem_of_lookup_eq_some (h : entries.lookup key = some a) : (key, a) ∈ entries := by
  obtain ⟨before, after, rfl, _⟩ := List.lookup_eq_some_iff.mp h
  exact List.mem_append_right _ List.mem_cons_self

/-- What is no key is not found. -/
theorem lookup_eq_none_of_not_mem (hkey : key ∉ entries.map Prod.fst) :
    entries.lookup key = none := by
  refine List.lookup_eq_none_iff.mpr fun entry hentry => ?_
  have hne : key ≠ entry.1 := fun heq => hkey (heq ▸ List.mem_map_of_mem hentry)
  simpa using hne

/-- With distinct keys, a look-up finds exactly the pairs of the list. -/
theorem lookup_eq_some_iff_of_nodup (hkeys : (entries.map Prod.fst).Nodup) :
    entries.lookup key = some a ↔ (key, a) ∈ entries := by
  refine ⟨mem_of_lookup_eq_some, fun hentry => ?_⟩
  induction entries with
  | nil => cases hentry
  | cons entry rest ih =>
      obtain ⟨hnew, hrest⟩ := List.nodup_cons.mp hkeys
      rcases List.mem_cons.mp hentry with rfl | hentry
      · exact List.lookup_cons_self
      · have hne : key ≠ entry.1 := by
          rintro rfl
          exact hnew (List.mem_map.mpr ⟨_, hentry, rfl⟩)
        rw [List.lookup_cons, beq_eq_false_iff_ne.mpr hne]
        exact ih hrest hentry

/-- Converting the values of a list converts what is found. -/
theorem lookup_map_values (entries : List (String × α)) (f : String → α → β) (key : String) :
    (entries.map fun entry => (entry.1, f entry.1 entry.2)).lookup key =
      (entries.lookup key).map (f key) := by
  induction entries with
  | nil => rfl
  | cons entry rest ih =>
      rw [List.map_cons, List.lookup_cons, List.lookup_cons, ih]
      by_cases hkey : key = entry.1
      · subst hkey
        simp
      · rw [beq_eq_false_iff_ne.mpr hkey]

/-- With distinct keys, a search for the key of an element finds the element. -/
theorem find?_eq_some_of_nodup {keyOf : α → String} {elements : List α}
    (hkeys : (elements.map keyOf).Nodup) (ha : a ∈ elements) :
    (elements.find? fun b => keyOf b = keyOf a) = some a := by
  induction elements with
  | nil => cases ha
  | cons first rest ih =>
      obtain ⟨hnew, hrest⟩ := List.nodup_cons.mp hkeys
      rcases List.mem_cons.mp ha with rfl | ha
      · exact List.find?_cons_of_pos (by simp)
      · have hne : ¬keyOf first = keyOf a := fun heq =>
          hnew (heq ▸ List.mem_map_of_mem ha)
        rw [List.find?_cons_of_neg (by simpa using hne)]
        exact ih hrest ha

end FlowGraph
