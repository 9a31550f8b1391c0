import FlowGraph.Proofs.Workflow.Declared
import FlowGraph.Workflow.Cycle
import Mathlib.Logic.Relation

/-!
# Cycles of connections

The search for a cycle is a loop: a step closes the innermost open node, passes
over a closed target or enters a new one.  Open nodes lie on the stack, so that
every open node leads to the innermost one, and an edge from there into an open
node closes a cycle.  Every step closes a node or uses up a connection, so that
the bound on the number of steps never cuts the loop short.

Main results:

- Theorem `acyclic_of_rank`: connections that only lead up a rank have no cycle.
- Theorem `mem_fanOut_iff_connects`: the targets of a node are those that some
  connection leads to.
- Inductive `CycleSearch.Step`: everything that the loop can do in one step.
- Theorem `CycleSearch.yields_run`: the loop ends by itself within the bound, with
  the result of the bounded loop.
- Theorem `CycleSearch.Yields.concluded`: a search finds a node on a cycle or
  leaves no node open.
- Theorem `Workflow.searches_iff`: the searches from all nodes in turn end by
  themselves, with one result.
- Theorem `on_cycle_of_findCycle`: the node found lies on a cycle.
- Theorem `findCycle_of_acyclic`: without a cycle none is found.
-/

namespace FlowGraph

namespace Workflow

/-- Some connection leads from one node to another. -/
def Connects (w : Workflow) (source target : String) : Prop :=
  ∃ c ∈ w.connections, c.source = source ∧ c.target = target

instance (w : Workflow) (source target : String) : Decidable (w.Connects source target) :=
  inferInstanceAs (Decidable (∃ c ∈ w.connections, c.source = source ∧ c.target = target))

/-- No way along the connections comes back to where it starts. -/
def Acyclic (w : Workflow) : Prop := ∀ id, ¬ Relation.TransGen w.Connects id id

/-- Connections that only lead up a rank have no cycle. -/
theorem acyclic_of_rank {w : Workflow} (rank : String → Nat)
    (hrank : ∀ c ∈ w.connections, rank c.source < rank c.target) : w.Acyclic := by
  intro id hcycle
  have hup : ∀ a b, w.Connects a b → rank a < rank b := by
    rintro _ _ ⟨c, hc, rfl, rfl⟩
    exact hrank c hc
  have hlt : Relation.TransGen (· < ·) (rank id) (rank id) :=
    Relation.TransGen.lift rank hup _ _ hcycle
  rw [Relation.transGen_eq_self] at hlt
  exact Nat.lt_irrefl _ hlt

/-- The targets of a node are those that some connection leads to. -/
theorem mem_fanOut_iff_connects (w : Workflow) (source target : String) :
    target ∈ w.graph.fanOut source ↔ w.Connects source target := by
  rw [fanOut_eq, List.mem_map, Connects]
  simp only [leaving, List.mem_filter, decide_eq_true_eq, and_assoc]

end Workflow

namespace CycleSearch

variable (w : Workflow)

/-! ## How long a search can go on -/

/-- The declared nodes and the connections that a search has not met: those whose
node, or whose source, has no mark. -/
def unmet (marks : Std.HashMap String Mark) : Nat :=
  (w.nodes.filter fun node => !marks.contains node.id).length +
    (w.connections.filter fun c => !marks.contains c.source).length

/-- How many steps are left at most: one for every node not closed, and one for
every connection not used up. -/
def stepsLeft (s : CycleSearch) : Nat :=
  unmet w s.marks + s.stack.length + (s.stack.flatMap Prod.snd).length

/-- Marking a new key leaves the elements under the other keys. -/
theorem length_filter_insert {α : Type} (key : α → String) (l : List α)
    {marks : Std.HashMap String Mark} {id : String} (hid : id ∉ marks) (mark : Mark) :
    (l.filter fun a => !(marks.insert id mark).contains (key a)).length +
        (l.filter fun a => key a = id).length =
      (l.filter fun a => !marks.contains (key a)).length := by
  induction l with
  | nil => rfl
  | cons a rest ih =>
      simp only [List.filter_cons]
      by_cases hkey : key a = id
      · subst hkey
        have hin : (marks.insert (key a) mark).contains (key a) = true := by simp
        have hout : marks.contains (key a) = false := by simpa using hid
        simp only [hin, hout, decide_true, Bool.not_true, Bool.not_false, if_true,
          List.length_cons, Bool.false_eq_true, if_false]
        omega
      · have hsame : (marks.insert id mark).contains (key a) = marks.contains (key a) := by
          simp [Std.HashMap.contains_insert, Ne.symm hkey]
        simp only [hsame, hkey, decide_false, Bool.false_eq_true, if_false]
        split
        · simp only [List.length_cons]
          omega
        · exact ih

/-- A mark more leaves no more to meet. -/
theorem unmet_insert_le (marks : Std.HashMap String Mark) (id : String) (mark : Mark) :
    unmet w (marks.insert id mark) ≤ unmet w marks := by
  have hkeep {α : Type} (key : α → String) (l : List α) :
      (l.filter fun a => !(marks.insert id mark).contains (key a)).length ≤
        (l.filter fun a => !marks.contains (key a)).length := by
    refine (List.monotone_filter_right l fun a ha => ?_).length_le
    rw [Std.HashMap.contains_insert] at ha
    simp_all
  exact Nat.add_le_add (hkeep Node.id w.nodes) (hkeep Connection.source w.connections)

/-- A declared node that is marked first, and its connections, are met. -/
theorem unmet_insert_lt {marks : Std.HashMap String Mark} {id : String} (hid : id ∉ marks)
    (hdeclared : (w.node? id).isSome = true) (mark : Mark) :
    unmet w (marks.insert id mark) + (1 + (w.graph.fanOut id).length) ≤ unmet w marks := by
  have hnodes := length_filter_insert Node.id w.nodes hid mark
  have hconnections := length_filter_insert Connection.source w.connections hid mark
  have hself : 0 < (w.nodes.filter fun node => node.id = id).length := by
    obtain ⟨node, hnode⟩ := Option.isSome_iff_exists.mp hdeclared
    obtain ⟨hmem, rfl⟩ := (w.node?_eq_some_iff id node).mp hnode
    exact List.length_pos_of_mem (List.mem_filter.mpr ⟨hmem, decide_eq_true rfl⟩)
  have hleaving : (w.graph.fanOut id).length =
      (w.connections.filter fun c => c.source = id).length := by
    rw [Workflow.fanOut_eq, List.length_map, Workflow.leaving]
  unfold unmet
  omega

/-! ## Steps of the loop -/

section

variable (g : Graph)

/-- What the loop can do in one step: close the innermost node when its targets are
used up, pass over a closed target, or enter a target without a mark. -/
inductive Step : CycleSearch → CycleSearch → Prop where
  | close {marks : Std.HashMap String Mark} {id : String} {rest : List (String × List String)} :
      Step ⟨marks, (id, []) :: rest⟩ ⟨marks.insert id .closed, rest⟩
  | skip {marks : Std.HashMap String Mark} {id target : String} {targets : List String}
      {rest : List (String × List String)} : marks[target]? = some .closed →
      Step ⟨marks, (id, target :: targets) :: rest⟩ ⟨marks, (id, targets) :: rest⟩
  | enter {marks : Std.HashMap String Mark} {id target : String} {targets : List String}
      {rest : List (String × List String)} : marks[target]? = none →
      Step ⟨marks, (id, target :: targets) :: rest⟩ (enter g ⟨marks, (id, targets) :: rest⟩ target)

/-- Where the loop ends: the stack is empty, or an edge leads into an open node. -/
inductive Ends : CycleSearch → Except String (Std.HashMap String Mark) → Prop where
  | emptied {marks : Std.HashMap String Mark} : Ends ⟨marks, []⟩ (.ok marks)
  | closesCycle {marks : Std.HashMap String Mark} {id target : String} {targets : List String}
      {rest : List (String × List String)} : marks[target]? = some .opened →
      Ends ⟨marks, (id, target :: targets) :: rest⟩ (.error target)

/-- The loop, without a bound on its steps, ends with a result. -/
def Yields (s : CycleSearch) (result : Except String (Std.HashMap String Mark)) : Prop :=
  ∃ last, Relation.ReflTransGen (Step g) s last ∧ Ends last result

/-- The searches from several nodes in turn, without a bound on their steps, end
with a result. -/
inductive Searches : Std.HashMap String Mark → List String → Option String → Prop where
  | nil {marks : Std.HashMap String Mark} : Searches marks [] none
  | marked {marks : Std.HashMap String Mark} {id : String} {rest : List String}
      {result : Option String} : id ∈ marks → Searches marks rest result →
      Searches marks (id :: rest) result
  | found {marks : Std.HashMap String Mark} {id : String} {rest : List String} {found : String} :
      id ∉ marks → Yields g (enter g ⟨marks, []⟩ id) (.error found) →
      Searches marks (id :: rest) (some found)
  | cleared {marks marks' : Std.HashMap String Mark} {id : String} {rest : List String}
      {result : Option String} : id ∉ marks → Yields g (enter g ⟨marks, []⟩ id) (.ok marks') →
      Searches marks' rest result → Searches marks (id :: rest) result

variable {g}

/-- The loop can do only one thing at a time. -/
theorem rightUnique_step : Relator.RightUnique (Step g) := by
  rintro s a b hfirst hsecond
  cases hfirst with
  | close => cases hsecond; rfl
  | skip hclosed =>
      cases hsecond with
      | skip => rfl
      | enter hnew => simp [hclosed] at hnew
  | enter hnew =>
      cases hsecond with
      | skip hclosed => simp [hnew] at hclosed
      | enter => rfl

/-- The loop makes no step from where it ends. -/
theorem Ends.not_step {s s' : CycleSearch} {result : Except String (Std.HashMap String Mark)}
    (hends : Ends s result) : ¬ Step g s s' := by
  intro hstep
  cases hends with
  | emptied => cases hstep
  | closesCycle hopened =>
      cases hstep with
      | skip hclosed => simp [hopened] at hclosed
      | enter hnew => simp [hopened] at hnew

/-- The loop ends where it ends with one result. -/
theorem Ends.unique {s : CycleSearch} {result result' : Except String (Std.HashMap String Mark)}
    (hends : Ends s result) (hends' : Ends s result') : result = result' := by
  cases hends with
  | emptied => cases hends'; rfl
  | closesCycle => cases hends'; rfl

/-- The loop ends with one result. -/
theorem Yields.unique {s : CycleSearch} {result result' : Except String (Std.HashMap String Mark)}
    (hyields : Yields g s result) (hyields' : Yields g s result') : result = result' := by
  obtain ⟨last, hsteps, hends⟩ := hyields
  obtain ⟨last', hsteps', hends'⟩ := hyields'
  have hsame : last = last' := by
    rcases hsteps.total_of_right_unique rightUnique_step hsteps' with hmore | hmore
    · rcases hmore.cases_head with rfl | ⟨next, hstep, -⟩
      · rfl
      · exact absurd hstep hends.not_step
    · rcases hmore.cases_head with rfl | ⟨next, hstep, -⟩
      · rfl
      · exact absurd hstep hends'.not_step
  exact hends.unique (hsame ▸ hends')

/-- The searches end with one result. -/
theorem Searches.unique {marks : Std.HashMap String Mark} {ids : List String}
    {result result' : Option String} (hsearches : Searches g marks ids result)
    (hsearches' : Searches g marks ids result') : result = result' := by
  induction hsearches with
  | nil => cases hsearches'; rfl
  | marked hmem _ ih =>
      cases hsearches' with
      | marked _ hrest => exact ih hrest
      | found hnew => exact absurd hmem hnew
      | cleared hnew => exact absurd hmem hnew
  | found hnew hyields =>
      cases hsearches' with
      | marked hmem => exact absurd hmem hnew
      | found _ hyields' => exact congrArg some (Except.error.inj (hyields.unique hyields'))
      | cleared _ hyields' => exact absurd (hyields.unique hyields') (by simp)
  | cleared hnew hyields _ ih =>
      cases hsearches' with
      | marked hmem => exact absurd hmem hnew
      | found _ hyields' => exact absurd (hyields.unique hyields') (by simp)
      | cleared _ hyields' hrest =>
          obtain rfl := Except.ok.inj (hyields.unique hyields')
          exact ih hrest

end

/-! ## What the stack holds -/

variable {w}

/-- Open nodes are on the stack, where each leads to those further in, and their
untried targets are targets. -/
structure Nested (w : Workflow) (s : CycleSearch) : Prop where
  opened : ∀ id, s.marks[id]? = some .opened → id ∈ s.stack.map Prod.fst
  chain : (s.stack.map Prod.fst).Pairwise fun inner outer =>
    Relation.TransGen w.Connects outer inner
  untried : ∀ entry ∈ s.stack, ∀ target ∈ entry.2, w.Connects entry.1 target

/-- No node is left open. -/
def NoneOpen (marks : Std.HashMap String Mark) : Prop :=
  ∀ id : String, marks[id]? ≠ some .opened

/-- Entering a node that every open one leads to keeps the nesting. -/
theorem Nested.enter {s : CycleSearch} {id : String} (hnested : Nested w s)
    (hinto : ∀ outer ∈ s.stack.map Prod.fst, Relation.TransGen w.Connects outer id) :
    Nested w (enter w.graph s id) where
  opened := by
    intro other hother
    simp only [CycleSearch.enter, Std.HashMap.getElem?_insert] at hother
    split at hother
    next heq => exact List.mem_cons.mpr (.inl (eq_of_beq heq).symm)
    next => exact List.mem_cons_of_mem _ (hnested.opened other hother)
  chain := List.pairwise_cons.mpr ⟨hinto, hnested.chain⟩
  untried := List.forall_mem_cons.mpr
    ⟨fun target htarget => (w.mem_fanOut_iff_connects id target).mp htarget, hnested.untried⟩

/-- A search from a node begins nested. -/
theorem nested_begin {marks : Std.HashMap String Mark} (hnone : NoneOpen marks) (id : String) :
    Nested w (enter w.graph ⟨marks, []⟩ id) := by
  have hempty : Nested w ⟨marks, []⟩ :=
    { opened := fun other hopened => absurd hopened (hnone other)
      chain := .nil
      untried := by simp }
  exact hempty.enter (by simp)

/-- Every open node leads to the targets of the innermost one. -/
theorem Nested.leads {marks : Std.HashMap String Mark} {id target : String}
    {targets : List String} {rest : List (String × List String)}
    (hnested : Nested w ⟨marks, (id, target :: targets) :: rest⟩) :
    ∀ outer ∈ id :: rest.map Prod.fst, Relation.TransGen w.Connects outer target := by
  have hedge : w.Connects id target :=
    hnested.untried _ List.mem_cons_self target List.mem_cons_self
  refine List.forall_mem_cons.mpr ⟨.single hedge, fun outer houter => ?_⟩
  exact ((List.pairwise_cons.mp hnested.chain).1 outer houter).tail hedge

/-- Every step keeps the nesting. -/
theorem Nested.step {s s' : CycleSearch} (hnested : Nested w s) (hstep : Step w.graph s s') :
    Nested w s' := by
  have hskip {marks : Std.HashMap String Mark} {id target : String} {targets : List String}
      {rest : List (String × List String)}
      (hnested : Nested w ⟨marks, (id, target :: targets) :: rest⟩) :
      Nested w ⟨marks, (id, targets) :: rest⟩ := by
    have hall := List.forall_mem_cons.mp hnested.untried
    exact ⟨hnested.opened, hnested.chain,
      List.forall_mem_cons.mpr ⟨(List.forall_mem_cons.mp hall.1).2, hall.2⟩⟩
  cases hstep with
  | close =>
      refine ⟨fun other hother => ?_, (List.pairwise_cons.mp hnested.chain).2,
        fun entry hentry => hnested.untried entry (List.mem_cons_of_mem _ hentry)⟩
      rw [Std.HashMap.getElem?_insert] at hother
      split at hother
      next => contradiction
      next hne =>
        rcases List.mem_cons.mp (hnested.opened other hother) with rfl | hrest
        · exact absurd BEq.rfl hne
        · exact hrest
  | skip => exact hskip hnested
  | enter => exact (hskip hnested).enter hnested.leads

/-! ## The loop ends -/

/-- Entering a declared node uses one step for the node and one for each of its
targets. -/
theorem stepsLeft_enter_le {s : CycleSearch} {id : String} (hid : id ∉ s.marks)
    (hdeclared : (w.node? id).isSome = true) :
    stepsLeft w (enter w.graph s id) ≤ stepsLeft w s := by
  have hmet := unmet_insert_lt w hid hdeclared .opened
  simp only [stepsLeft, enter, List.flatMap_cons, List.length_cons, List.length_append]
  omega

/-- Every step closes a node or uses up a connection. -/
theorem Nested.stepsLeft_lt {s s' : CycleSearch} (hnested : Nested w s)
    (hstep : Step w.graph s s') : stepsLeft w s' < stepsLeft w s := by
  cases hstep with
  | @close marks id rest =>
      have hmet := unmet_insert_le w marks id .closed
      simp only [stepsLeft, List.flatMap_cons, List.length_cons, List.length_append]
      omega
  | skip =>
      simp only [stepsLeft, List.flatMap_cons, List.length_cons, List.length_append]
      omega
  | @enter marks id target targets rest hnew =>
      have hdeclared : (w.node? target).isSome = true := by
        obtain ⟨c, hc, -, rfl⟩ := hnested.untried _ List.mem_cons_self _ List.mem_cons_self
        exact (Workflow.isSome_node?_of_connection hc).2
      have hentered := stepsLeft_enter_le (s := ⟨marks, (id, targets) :: rest⟩)
        (by simpa using hnew) hdeclared
      refine Nat.lt_of_le_of_lt hentered ?_
      simp only [stepsLeft, List.flatMap_cons, List.length_cons, List.length_append]
      omega

/-- The bounded loop makes the steps of the loop, or has ended. -/
theorem run_cases (g : Graph) (fuel : Nat) (s : CycleSearch) :
    (∃ s', Step g s s' ∧ run g (fuel + 1) s = run g fuel s') ∨ Ends s (run g (fuel + 1) s) := by
  rcases s with ⟨marks, _ | ⟨⟨id, _ | ⟨target, targets⟩⟩, rest⟩⟩
  · exact .inr .emptied
  · exact .inl ⟨_, .close, rfl⟩
  · simp only [run]
    split
    next hopened => exact .inr (.closesCycle hopened)
    next hclosed => exact .inl ⟨_, .skip hclosed, rfl⟩
    next hnew => exact .inl ⟨_, .enter hnew, rfl⟩

/-- The loop ends by itself within as many steps as are left, with the result of the
bounded loop. -/
theorem yields_run {fuel : Nat} {s : CycleSearch} (hnested : Nested w s)
    (hfuel : stepsLeft w s ≤ fuel) : Yields w.graph s (run w.graph fuel s) := by
  induction fuel generalizing s with
  | zero =>
      rcases s with ⟨marks, _ | ⟨entry, rest⟩⟩
      · exact ⟨_, .refl, .emptied⟩
      · simp [stepsLeft] at hfuel
  | succ fuel ih =>
      rcases run_cases w.graph fuel s with ⟨s', hstep, hrun⟩ | hends
      · have hless := hnested.stepsLeft_lt hstep
        obtain ⟨last, hsteps, hends⟩ := ih (hnested.step hstep) (by omega)
        exact ⟨last, hsteps.head hstep, hrun ▸ hends⟩
      · exact ⟨s, .refl, hends⟩

/-! ## What a search finds -/

/-- What a whole search from one node may come to: a node on a cycle, or marks
that leave no node open. -/
def Concluded (w : Workflow) : Except String (Std.HashMap String Mark) → Prop
  | .error found => Relation.TransGen w.Connects found found
  | .ok marks => NoneOpen marks

/-- A search finds a node on a cycle or leaves no node open. -/
theorem Yields.concluded {s : CycleSearch} {result : Except String (Std.HashMap String Mark)}
    (hyields : Yields w.graph s result) (hnested : Nested w s) : Concluded w result := by
  obtain ⟨last, hsteps, hends⟩ := hyields
  have hlast : Nested w last := by
    clear hends
    induction hsteps with
    | refl => exact hnested
    | tail _ hstep ih => exact ih.step hstep
  cases hends with
  | emptied => exact fun id hopened => List.not_mem_nil (hlast.opened id hopened)
  | closesCycle hopened => exact hlast.leads _ (hlast.opened _ hopened)

/-- The nodes and the connections not met are at most all. -/
theorem unmet_le (w : Workflow) (marks : Std.HashMap String Mark) :
    unmet w marks ≤ w.nodes.length + w.connections.length :=
  Nat.add_le_add (List.length_filter_le _ _) (List.length_filter_le _ _)

/-- The bounded searches from several nodes are the searches without a bound. -/
theorem searches_fromNodes {ids : List String} {marks : Std.HashMap String Mark}
    (hdeclared : ∀ id ∈ ids, (w.node? id).isSome = true) (hnone : NoneOpen marks) :
    Searches w.graph marks ids
      (fromNodes w.graph (w.nodes.length + w.connections.length) marks ids) := by
  induction ids generalizing marks with
  | nil => exact .nil
  | cons id rest ih =>
      obtain ⟨hid, hrest⟩ := List.forall_mem_cons.mp hdeclared
      rw [fromNodes]
      split
      next hmarked => exact .marked (by simpa using hmarked) (ih hrest hnone)
      next hnew =>
        have hmarks : id ∉ marks := by simpa using hnew
        have hsteps : stepsLeft w (enter w.graph ⟨marks, []⟩ id) ≤
            w.nodes.length + w.connections.length :=
          Nat.le_trans (stepsLeft_enter_le hmarks hid) (unmet_le w marks)
        have hyields := yields_run (nested_begin hnone id) hsteps
        split
        next found heq => exact .found hmarks (heq ▸ hyields)
        next marks' heq =>
          rw [heq] at hyields
          exact .cleared hmarks hyields (ih hrest (hyields.concluded (nested_begin hnone id)))

/-- Searches find only a node on a cycle. -/
theorem Searches.on_cycle {ids : List String} {marks : Std.HashMap String Mark} {found : String}
    (hsearches : Searches w.graph marks ids (some found)) (hnone : NoneOpen marks) :
    Relation.TransGen w.Connects found found := by
  generalize hresult : some found = result at hsearches
  induction hsearches with
  | nil => contradiction
  | marked _ _ ih => exact ih hnone hresult
  | found _ hyields =>
      obtain rfl := Option.some.inj hresult
      exact hyields.concluded (nested_begin hnone _)
  | cleared _ hyields _ ih => exact ih (hyields.concluded (nested_begin hnone _)) hresult

end CycleSearch

namespace Workflow

open CycleSearch (Searches)

/-- The searches from all nodes in turn end by themselves, with one result. -/
theorem searches_iff (w : Workflow) (result : Option String) :
    Searches w.graph ∅ (w.nodes.map Node.id) result ↔ w.findCycle = result := by
  have hends : Searches w.graph ∅ (w.nodes.map Node.id) w.findCycle :=
    CycleSearch.searches_fromNodes (fun id hid => (w.isSome_node?_iff id).mpr hid)
      (fun id => by simp)
  exact ⟨hends.unique, fun hresult => hresult ▸ hends⟩

/-- The node found lies on a cycle. -/
theorem on_cycle_of_findCycle {w : Workflow} {id : String} (hfound : w.findCycle = some id) :
    Relation.TransGen w.Connects id id :=
  ((w.searches_iff _).mpr hfound).on_cycle fun id => by simp

/-- Without a cycle none is found. -/
theorem findCycle_of_acyclic {w : Workflow} (hacyclic : w.Acyclic) : w.findCycle = none := by
  cases hfound : w.findCycle with
  | none => rfl
  | some id => exact absurd (on_cycle_of_findCycle hfound) (hacyclic id)

end Workflow

end FlowGraph
