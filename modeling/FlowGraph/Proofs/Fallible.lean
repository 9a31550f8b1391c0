import Mathlib.Data.List.Forall2

/-!
# Computations that may fail

A sequence of computations succeeds if each of them does, with the values of the ones
before.

Main results:

- Theorem `bind_eq_ok`: when two computations succeed in sequence.
- Theorem `mapM_eq_ok_iff`: when a computation succeeds on every item of a list.
-/

namespace FlowGraph

variable {α β ε : Type}

/-- Two computations in sequence succeed if the first does, and the second on its value. -/
theorem bind_eq_ok {e : Except ε α} {f : α → Except ε β} {b : β} :
    (e >>= f) = .ok b ↔ ∃ a, e = .ok a ∧ f a = .ok b := by
  cases e <;> simp [bind, Except.bind]

/-- A computation goes on with the value of one that succeeded. -/
theorem ok_bind (a : α) (f : α → Except ε β) : (Except.ok a >>= f) = f a := rfl

/-- A value without computation succeeds with this value. -/
theorem pure_eq_ok {a b : α} : (pure a : Except ε α) = .ok b ↔ a = b := by
  simp [pure, Except.pure]

/-- A computation over a list succeeds if it does on every item. -/
theorem mapM_eq_ok_iff {f : α → Except ε β} {items : List α} {results : List β} :
    items.mapM f = .ok results ↔
      List.Forall₂ (fun item result => f item = .ok result) items results := by
  induction items generalizing results with
  | nil =>
      rw [List.mapM_nil, pure_eq_ok, List.forall₂_nil_left_iff]
      exact eq_comm
  | cons item rest ih =>
      rw [List.mapM_cons, List.forall₂_cons_left_iff]
      simp only [bind_eq_ok, pure_eq_ok, ih]
      constructor
      · rintro ⟨result, hitem, results, hrest, rfl⟩
        exact ⟨result, results, hitem, hrest, rfl⟩
      · rintro ⟨result, results, hitem, hrest, rfl⟩
        exact ⟨result, hitem, results, hrest, rfl⟩

end FlowGraph
