import FlowGraph.Proofs.Workflow.Cycle

/-!
# Nodes that reach no cycle

A node is closed when all its targets are, so that every way from a closed node
ends.  Searches that find no cycle close every node they mark, and they mark all
nodes: then no way along the connections goes on forever, and none comes back.

Main results:

- Theorem `Workflow.not_on_cycle_of_dead`: no cycle leads through a node from which
  every way ends.
- Theorem `CycleSearch.Tried.step`: what was tried from an open node has been closed,
  after every step.
- Theorem `Workflow.findCycle_eq_none_iff`: none is found exactly without a cycle.
-/

namespace FlowGraph

namespace Workflow

/-- Every way from a node along the connections ends. -/
def Dead (w : Workflow) (id : String) : Prop := Acc (fun target source => w.Connects source target) id

/-- Every way from a node ends when every way from its targets does. -/
theorem dead_of_targets {w : Workflow} {id : String}
    (htargets : ∀ target, w.Connects id target → w.Dead target) : w.Dead id :=
  Acc.intro id htargets

/-- No cycle leads through a node from which every way ends. -/
theorem not_on_cycle_of_dead {w : Workflow} {id : String} (hdead : w.Dead id) :
    ¬ Relation.TransGen w.Connects id id := by
  intro hcycle
  -- The cycle is gone through once for every step of the descent, from each of its nodes.
  induction hdead with
  | intro id _ ih =>
      obtain ⟨target, hedge, hback⟩ := Relation.TransGen.head'_iff.mp hcycle
      exact ih target hedge (Relation.TransGen.tail' hback hedge)

end Workflow

namespace CycleSearch

variable {w : Workflow}

/-- Every way from a closed node ends. -/
def ClosedDead (w : Workflow) (marks : Std.HashMap String Mark) : Prop :=
  ∀ id : String, marks[id]? = some .closed → w.Dead id

/-- Every way ends from a target of an open node, unless the target is untried or is
the open node entered from there. -/
def Tried (w : Workflow) : Option String → List (String × List String) → Prop
  | _, [] => True
  | entered, (id, targets) :: rest =>
    (∀ target, w.Connects id target →
      target ∈ targets ∨ w.Dead target ∨ some target = entered) ∧ Tried w (some id) rest

/-- A node from which every way ends need not be the one entered. -/
theorem Tried.leave {id : String} {stack : List (String × List String)}
    (htried : Tried w (some id) stack) (hdead : w.Dead id) : Tried w none stack := by
  rcases stack with _ | ⟨⟨outer, targets⟩, rest⟩
  · trivial
  · refine ⟨fun target hedge => ?_, htried.2⟩
    rcases htried.1 target hedge with huntried | hdead' | hentered
    · exact .inl huntried
    · exact .inr (.inl hdead')
    · exact .inr (.inl (Option.some.inj hentered ▸ hdead))

/-- What a search knows of the ways that it has tried. -/
structure Explored (w : Workflow) (s : CycleSearch) : Prop where
  closed : ClosedDead w s.marks
  tried : Tried w none s.stack

/-- A search from a node begins with all its targets untried. -/
theorem explored_begin {marks : Std.HashMap String Mark} (hclosed : ClosedDead w marks)
    (id : String) : Explored w (enter w.graph ⟨marks, []⟩ id) where
  closed := by
    intro other hother
    simp only [enter, Std.HashMap.getElem?_insert] at hother
    split at hother
    next => contradiction
    next => exact hclosed other hother
  tried := ⟨fun target hedge => .inl ((w.mem_fanOut_iff_connects id target).mpr hedge), trivial⟩

/-- Every step keeps what is known of the ways tried. -/
theorem Explored.step {s s' : CycleSearch} (hexplored : Explored w s)
    (hstep : Step w.graph s s') : Explored w s' := by
  obtain ⟨hclosed, htried⟩ := hexplored
  cases hstep with
  | @close marks id rest =>
      have hdead : w.Dead id := Workflow.dead_of_targets fun target hedge => by
        simpa using htried.1 target hedge
      refine ⟨fun other hother => ?_, htried.2.leave hdead⟩
      rw [Std.HashMap.getElem?_insert] at hother
      split at hother
      next heq => exact eq_of_beq heq ▸ hdead
      next => exact hclosed other hother
  | @skip marks id target targets rest hmark =>
      refine ⟨hclosed, fun other hedge => ?_, htried.2⟩
      rcases htried.1 other hedge with huntried | hdead
      · rcases List.mem_cons.mp huntried with rfl | huntried
        · exact .inr (.inl (hclosed other hmark))
        · exact .inl huntried
      · exact .inr hdead
  | @enter marks id target targets rest hnew =>
      refine ⟨(explored_begin hclosed target).closed,
        fun other hedge => .inl ((w.mem_fanOut_iff_connects target other).mpr hedge),
        fun other hedge => ?_, htried.2⟩
      rcases htried.1 other hedge with huntried | hdead | hnone
      · rcases List.mem_cons.mp huntried with rfl | huntried
        · exact .inr (.inr rfl)
        · exact .inl huntried
      · exact .inr (.inl hdead)
      · contradiction

/-! ## Marks stay -/

/-- No step takes a mark away. -/
theorem Step.mem_marks {s s' : CycleSearch} (hstep : Step w.graph s s') {id : String}
    (hid : id ∈ s.marks) : id ∈ s'.marks := by
  cases hstep with
  | close => exact Std.HashMap.mem_insert.mpr (.inr hid)
  | skip => exact hid
  | enter => exact Std.HashMap.mem_insert.mpr (.inr hid)

/-- A search that finds no cycle keeps the marks and marks its node, and every way
from a node that it closes ends. -/
theorem Yields.explored {marks marks' : Std.HashMap String Mark} {id : String}
    (hyields : Yields w.graph (enter w.graph ⟨marks, []⟩ id) (.ok marks'))
    (hclosed : ClosedDead w marks) :
    ClosedDead w marks' ∧ id ∈ marks' ∧ ∀ other ∈ marks, other ∈ marks' := by
  obtain ⟨last, hsteps, hends⟩ := hyields
  have hlast : Explored w last ∧
      ∀ other ∈ (enter w.graph ⟨marks, []⟩ id).marks, other ∈ last.marks := by
    clear hends
    induction hsteps with
    | refl => exact ⟨explored_begin hclosed id, fun _ hother => hother⟩
    | tail _ hstep ih => exact ⟨ih.1.step hstep, fun _ hother => hstep.mem_marks (ih.2 _ hother)⟩
  cases hends with
  | emptied =>
      exact ⟨hlast.1.closed, hlast.2 id (by simp [enter]),
        fun other hother => hlast.2 other (by simp [enter, hother])⟩

/-- Searches that find no cycle leave only nodes from which every way ends. -/
theorem Searches.dead {marks : Std.HashMap String Mark} {ids : List String}
    (hsearches : Searches w.graph marks ids none) (hnone : NoneOpen marks)
    (hclosed : ClosedDead w marks) : ∀ id, id ∈ ids ∨ id ∈ marks → w.Dead id := by
  generalize hresult : (none : Option String) = result at hsearches
  induction hsearches with
  | nil =>
      rintro id (hid | hid)
      · exact absurd hid List.not_mem_nil
      · obtain ⟨mark, hmark⟩ := Option.isSome_iff_exists.mp
          (Std.HashMap.isSome_getElem?_iff_mem.mpr hid)
        cases mark with
        | opened => exact absurd hmark (hnone id)
        | closed => exact hclosed id hmark
  | marked hmem _ ih =>
      rintro id (hid | hid)
      · rcases List.mem_cons.mp hid with rfl | hid
        · exact ih hnone hclosed hresult id (.inr hmem)
        · exact ih hnone hclosed hresult id (.inl hid)
      · exact ih hnone hclosed hresult id (.inr hid)
  | found => contradiction
  | cleared _ hyields _ ih =>
      obtain ⟨hclosed', hself, hkept⟩ := hyields.explored hclosed
      have hdead := ih (hyields.concluded (nested_begin hnone _)) hclosed' hresult
      rintro id (hid | hid)
      · rcases List.mem_cons.mp hid with rfl | hid
        · exact hdead id (.inr hself)
        · exact hdead id (.inl hid)
      · exact hdead id (.inr (hkept id hid))

end CycleSearch

namespace Workflow

/-- None is found exactly without a cycle. -/
theorem findCycle_eq_none_iff {w : Workflow} : w.findCycle = none ↔ w.Acyclic := by
  refine ⟨fun hnone id hcycle => ?_, findCycle_of_acyclic⟩
  -- A node on a cycle has a connection, so that it is declared and was searched from.
  have hdeclared : id ∈ w.nodes.map Node.id := by
    obtain ⟨target, ⟨c, hc, rfl, -⟩, -⟩ := Relation.TransGen.head'_iff.mp hcycle
    exact (w.isSome_node?_iff _).mp (isSome_node?_of_connection hc).1
  have hdead := ((w.searches_iff none).mpr hnone).dead (fun id => by simp) (fun id => by simp)
    id (.inl hdeclared)
  exact not_on_cycle_of_dead hdead hcycle

end Workflow

end FlowGraph
