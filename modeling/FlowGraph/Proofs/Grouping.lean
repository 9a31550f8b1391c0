import Mathlib.Data.List.Nodup

/-!
# Grouping by keys

The elements of a list fall into groups, one for each key, and every group keeps
the order of the list.

Main results:

- Theorem `nodup_eraseDups`: dropping repeats leaves none.
- Theorem `perm_flatMap_filter`: the groups of distinct keys together hold every
  element as often as the list does.
-/

namespace FlowGraph

variable {α β : Type} [DecidableEq β]

/-- Dropping repeats leaves none. -/
theorem nodup_eraseDups (l : List β) : l.eraseDups.Nodup := by
  induction hlength : l.length using Nat.strongRecOn generalizing l with
  | ind n ih =>
      cases l with
      | nil => exact List.nodup_nil
      | cons a rest =>
          have hshorter : (rest.filter fun b => !b == a).length < n := by
            rw [← hlength, List.length_cons]
            exact Nat.lt_succ_of_le (List.length_filter_le _ _)
          rw [List.eraseDups_cons, List.nodup_cons, List.mem_eraseDups]
          exact ⟨by simp, ih _ hshorter _ rfl⟩

/-- The groups of distinct keys together hold every element as often as the list
does. -/
theorem perm_flatMap_filter {key : α → β} {keys : List β} {xs : List α} (hkeys : keys.Nodup)
    (hall : ∀ x ∈ xs, key x ∈ keys) :
    (keys.flatMap fun k => xs.filter fun x => key x = k).Perm xs := by
  induction keys generalizing xs with
  | nil =>
      cases xs with
      | nil => exact .nil
      | cons x rest => exact absurd (hall x List.mem_cons_self) List.not_mem_nil
  | cons k keys ih =>
      obtain ⟨hnew, hrest⟩ := List.nodup_cons.mp hkeys
      let others := xs.filter fun x => !decide (key x = k)
      have hothers : ∀ x ∈ others, key x ∈ keys := by
        intro x hx
        obtain ⟨hmem, hne⟩ := List.mem_filter.mp hx
        exact (List.mem_cons.mp (hall x hmem)).resolve_left (by simpa using hne)
      have hgroups : (keys.flatMap fun k' => xs.filter fun x => key x = k') =
          keys.flatMap fun k' => others.filter fun x => key x = k' := by
        refine List.flatMap_congr fun k' hk' => ?_
        rw [List.filter_filter]
        refine List.filter_congr fun x _ => ?_
        by_cases hx : key x = k'
        · have hne : k' ≠ k := fun heq => hnew (heq ▸ hk')
          simp [hx, hne]
        · simp [hx]
      rw [List.flatMap_cons, hgroups]
      exact ((ih hrest hothers).append_left _).trans (List.filter_append_perm _ xs)

end FlowGraph
