import FlowGraph.Proofs.Workflow.Walk

/-!
# Traversals under arbitrary use

A traversal may be asked for the next id and told of completed ids in any order, with any
ids.  A history lists these calls.  The queue at the end of a history is what is left of
all the ids that were ever enqueued, after those in front that the calls have popped.

Main results:

- Theorem `Traversal.History.matches_traversal`: the traversal holds the ids that are not
  popped, and those that are completed.
- Theorem `Traversal.History.pops_next`: what a call for the next id returns and pops.
- Theorem `Traversal.History.nodup_returned`: if every returned id is completed before the
  next call, none is returned twice.
- Theorem `Traversal.History.follows_discipline`: the discipline of the queue.
-/

namespace FlowGraph

namespace Traversal

/-- What was done with a traversal, the last call outermost. -/
inductive History where
  | start (ids : List String)
  | next (before : History)
  | complete (before : History) (id : String) (successors : List String)

namespace History

/-! ## What a history says -/

/-- The traversal at the end. -/
def traversal : History → Traversal
  | .start ids => Traversal.start ids
  | .next before => before.traversal.next.2
  | .complete before id successors => before.traversal.complete id successors

/-- The answer to a call for the next id at the end. -/
def answer (h : History) : Option String := h.traversal.next.1

/-- The ids that the calls returned, in order. -/
def returned : History → List String
  | .start _ => []
  | .next before => before.returned ++ before.answer.toList
  | .complete before _ _ => before.returned

/-- All ids that were enqueued, in order. -/
def enqueued : History → List String
  | .start ids => ids
  | .next before => before.enqueued
  | .complete before _ successors => before.enqueued ++ successors

/-- The completed ids, whether they were returned before or not. -/
def completed : History → List String
  | .start _ => []
  | .next before => before.completed
  | .complete before id _ => id :: before.completed

/-- How many of the enqueued ids are popped.  Of those left, a call for the next id pops the
first one that is not completed and all before it, or all of them if there is none. -/
def popped : History → Nat
  | .start _ => 0
  | .next before =>
    let left := before.enqueued.drop before.popped
    before.popped + min (left.findIdx (· ∉ before.completed) + 1) left.length
  | .complete before _ _ => before.popped

/-- The enqueued ids that are not popped, in order. -/
def left (h : History) : List String := h.enqueued.drop h.popped

/-- Each returned id is completed before the next call for an id. -/
def Prompt : History → Prop
  | .start _ => True
  | .next before => before.Prompt ∧ ∀ id ∈ before.returned, id ∈ before.completed
  | .complete before _ _ => before.Prompt

/-- What a call for the next id does: it passes over completed ids and returns the first one
that is not completed, or passes over all and returns none. -/
inductive Pops (left completed : List String) : Option String → List String → Prop
  | nothing : (∀ other ∈ left, other ∈ completed) → Pops left completed none []
  | first {id : String} {dropped rest : List String} : left = dropped ++ id :: rest →
      (∀ other ∈ dropped, other ∈ completed) → id ∉ completed →
      Pops left completed (some id) rest

/-- The later history goes on from the earlier one. -/
inductive ContinuedBy (h : History) : History → Prop
  | here : ContinuedBy h h
  | next {later : History} : ContinuedBy h later → ContinuedBy h later.next
  | complete {later : History} (id : String) (successors : List String) :
      ContinuedBy h later → ContinuedBy h (later.complete id successors)

variable {h : History} {id : String}

/-- What is completed stays completed. -/
theorem ContinuedBy.completed_subset {later : History} (hlater : ContinuedBy h later) :
    h.completed ⊆ later.completed := by
  induction hlater with
  | here => exact List.Subset.refl _
  | next _ ih => exact ih
  | complete _ _ _ ih => exact List.subset_cons_of_subset _ ih

/-! ## One call -/

namespace Pops

variable {left completed rest : List String} {answer : Option String}

/-- The answer is the first id that is not completed. -/
theorem answer_eq (hpops : Pops left completed answer rest) :
    answer = left.find? (· ∉ completed) := by
  cases hpops with
  | nothing hall =>
      symm
      rw [List.find?_eq_none]
      simpa using hall
  | first hleft hdropped hid =>
      symm
      rw [List.find?_eq_some_iff_append]
      exact ⟨by simpa using hid, _, _, hleft, by simpa using hdropped⟩

/-- As many ids are popped as stand before the first one that is not completed, and this one. -/
theorem drop_eq (hpops : Pops left completed answer rest) :
    left.drop (min (left.findIdx (· ∉ completed) + 1) left.length) = rest := by
  cases hpops with
  | nothing hall =>
      -- There is no id behind the completed ones, so the minimum is the length.
      have hnone : left.findIdx (· ∉ completed) = left.length :=
        List.findIdx_eq_length_of_false (by simpa using hall)
      rw [hnone, Nat.min_eq_right (Nat.le_succ _), List.drop_length]
  | @first id dropped _ hleft hdropped hid =>
      have hnone : dropped.findIdx (· ∉ completed) = dropped.length :=
        List.findIdx_eq_length_of_false (by simpa using hdropped)
      have hfirst : left.findIdx (· ∉ completed) = dropped.length := by
        rw [hleft, List.findIdx_append, hnone, if_neg (Nat.lt_irrefl _), List.findIdx_cons]
        simp [hid]
      have hlength : left.length = dropped.length + 1 + rest.length := by
        rw [hleft, List.length_append, List.length_cons]
        omega
      rw [hfirst, Nat.min_eq_left (by omega), hleft, ← List.drop_drop, List.drop_left]
      rfl

/-- Only completed ids are passed over, and the rest keeps its order. -/
theorem exists_dropped (hpops : Pops left completed answer rest) :
    ∃ dropped, (∀ other ∈ dropped, other ∈ completed) ∧
      left = dropped ++ answer.toList ++ rest := by
  cases hpops with
  | nothing hall => exact ⟨left, hall, by simp⟩
  | first hleft hdropped _ => exact ⟨_, hdropped, by simpa using hleft⟩

end Pops

/-- No more ids are popped than were enqueued. -/
theorem popped_le (h : History) : h.popped ≤ h.enqueued.length := by
  induction h with
  | start ids => exact Nat.zero_le _
  | next before ih =>
      simp only [popped, enqueued, List.length_drop]
      omega
  | complete before id successors ih =>
      simp only [popped, enqueued, List.length_append]
      omega

/-- Completing an id leaves its successors at the end. -/
theorem left_complete (h : History) (id : String) (successors : List String) :
    (h.complete id successors).left = h.left ++ successors :=
  List.drop_append_of_le_length h.popped_le

/-- A call for the next id leaves what it does not pop. -/
theorem left_next {answer : Option String} {rest : List String}
    (hpops : Pops h.left h.completed answer rest) : h.next.left = rest := by
  rw [← hpops.drop_eq]
  simp only [left, popped, enqueued, List.drop_drop]

/-! ## All calls -/

/-- The traversal at the end holds what the history says. -/
structure Matches (h : History) : Prop where
  queue : h.traversal.queue = h.left
  executed : ∀ id, id ∈ h.traversal.executed ↔ id ∈ h.completed

/-- A call for the next id pops from what is left. -/
theorem Matches.pops (hmatches : h.Matches) :
    Pops h.left h.completed h.answer h.next.traversal.queue ∧
      h.next.traversal.executed = h.traversal.executed := by
  obtain ⟨hqueue, hexecuted⟩ := hmatches
  simp only [← hqueue, answer, traversal]
  rcases hnext : h.traversal.next with ⟨_ | id, t⟩
  · obtain ⟨hall, rfl⟩ := next_eq_none hnext
    refine ⟨.nothing ?_, rfl⟩
    intro other hother
    exact (hexecuted other).mp (hall other hother)
  · obtain ⟨hid, hsame, dropped, hsplit, hdropped⟩ := next_eq_some hnext
    refine ⟨.first hsplit ?_ ?_, hsame⟩
    · intro other hother
      exact (hexecuted other).mp (hdropped other hother)
    · rwa [← hexecuted]

/-- After any calls, the traversal holds the ids that are left, and the completed ones. -/
theorem matches_traversal (h : History) : h.Matches := by
  -- The calls before the last one leave a traversal that matches them; the last one keeps this.
  induction h with
  | start ids => exact ⟨rfl, by simp [traversal, completed, Traversal.start]⟩
  | next before ih =>
      obtain ⟨hpops, hsame⟩ := ih.pops
      refine ⟨(left_next hpops).symm, ?_⟩
      rw [hsame]
      exact ih.executed
  | complete before id successors ih =>
      constructor
      · rw [left_complete, ← ih.queue]
        rfl
      · intro other
        rw [traversal, mem_complete_executed, completed, List.mem_cons, ih.executed]

/-- After any calls, a call for the next id pops from what is left. -/
theorem pops_next (h : History) : Pops h.left h.completed h.answer h.next.left := by
  have hpops := h.matches_traversal.pops.1
  rwa [← left_next hpops] at hpops

/-- The answer is the earliest id left that is not completed. -/
theorem answer_eq_some_iff :
    h.answer = some id ↔ ∃ dropped rest, h.left = dropped ++ id :: rest ∧
      (∀ other ∈ dropped, other ∈ h.completed) ∧ id ∉ h.completed := by
  rw [h.pops_next.answer_eq, List.find?_eq_some_iff_append]
  simp only [decide_not, Bool.not_not, Bool.not_eq_true', decide_eq_true_eq,
    decide_eq_false_iff_not]
  constructor
  · rintro ⟨hid, dropped, rest, hleft, hdropped⟩
    exact ⟨dropped, rest, hleft, hdropped, hid⟩
  · rintro ⟨dropped, rest, hleft, hdropped, hid⟩
    exact ⟨hid, dropped, rest, hleft, hdropped⟩

/-- There is no answer if all that is left is completed. -/
theorem answer_eq_none_iff : h.answer = none ↔ ∀ id ∈ h.left, id ∈ h.completed := by
  rw [h.pops_next.answer_eq, List.find?_eq_none]
  simp

/-- A completed id is not returned. -/
theorem answer_ne_of_completed (hid : id ∈ h.completed) : h.answer ≠ some id := by
  intro hanswer
  obtain ⟨_, _, _, _, hnot⟩ := answer_eq_some_iff.mp hanswer
  exact hnot hid

/-- If every returned id is completed before the next call for one, none is returned twice. -/
theorem nodup_returned (hprompt : h.Prompt) : h.returned.Nodup := by
  induction h with
  | start ids => exact List.nodup_nil
  | next before ih =>
      obtain ⟨hbefore, hcompleted⟩ := hprompt
      rw [returned]
      cases hanswer : before.answer with
      | none => simpa using ih hbefore
      | some id =>
          have hnew : id ∉ before.returned := by
            intro hid
            exact answer_ne_of_completed (hcompleted id hid) hanswer
          refine List.nodup_append.mpr ⟨ih hbefore, List.nodup_singleton id, ?_⟩
          intro other hother last hlast
          obtain rfl := List.mem_singleton.mp hlast
          exact ne_of_mem_of_not_mem hother hnew
  | complete before id successors ih => exact ih hprompt

/-- A traversal that is used in any way is a queue that passes over completed ids.  It holds
the enqueued ids that no call has popped, in order.  A call for the next id returns the
earliest of them that is not completed by then, and none if there is none; what it passes
over is completed, and the rest stays as it is.  A completed id is never returned later,
so if every returned id is completed before the next call, none is returned twice. -/
theorem follows_discipline (h : History) :
    h.traversal.queue = h.left ∧
    (∀ id, h.traversal.isExecuted id = true ↔ id ∈ h.completed) ∧
    (∀ id, h.answer = some id ↔ ∃ dropped rest, h.left = dropped ++ id :: rest ∧
      (∀ other ∈ dropped, other ∈ h.completed) ∧ id ∉ h.completed) ∧
    (h.answer = none ↔ ∀ id ∈ h.left, id ∈ h.completed) ∧
    (∃ dropped, (∀ other ∈ dropped, other ∈ h.completed) ∧
      h.left = dropped ++ h.answer.toList ++ h.next.left) ∧
    (∀ later, ContinuedBy h later → ∀ id ∈ h.completed, later.answer ≠ some id) ∧
    (h.Prompt → h.returned.Nodup) := by
  obtain ⟨hqueue, hexecuted⟩ := h.matches_traversal
  refine ⟨hqueue, ?_, fun id => answer_eq_some_iff, answer_eq_none_iff, h.pops_next.exists_dropped,
    ?_, nodup_returned⟩
  · intro id
    rw [← hexecuted]
    exact Std.HashSet.contains_iff_mem
  · intro later hlater id hid
    exact answer_ne_of_completed (hlater.completed_subset hid)

/-- An id that is enqueued four times and completed after its first return is returned once. -/
theorem follows_discipline_repeats :
    let first : History := .next (.start ["a", "a"])
    let second := (first.complete "a" ["b", "a"]).next
    let h := (second.complete "b" ["a"]).next
    h.Prompt ∧ h.returned = ["a", "b"] ∧ h.returned.Nodup := by
  intro first second h
  have hreturned : h.returned = ["a", "b"] := by
    simp only [h, second, first, returned, (pops_next _).answer_eq]
    decide
  have hprompt : h.Prompt := by
    simp only [h, second, first, Prompt, returned, (pops_next _).answer_eq]
    decide
  obtain ⟨-, -, -, -, -, -, hnodup⟩ := follows_discipline h
  exact ⟨hprompt, hreturned, hnodup hprompt⟩

end History

end Traversal

end FlowGraph
