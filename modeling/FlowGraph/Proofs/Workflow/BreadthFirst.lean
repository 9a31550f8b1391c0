import FlowGraph.Proofs.Workflow.Walk
import Mathlib.Logic.Function.Iterate
import Mathlib.Order.Bounds.Basic
import Mathlib.Order.Lattice.Nat

/-!
# Breadth-first order

A dry run is a loop that pops one id after the other from a queue.  The queue
may hold many copies of an id, and only the pop tests whether an id has been
executed.  This module follows the loop pop by pop.  Every waiting id is given a
level, the number of hops by which it was reached; levels never decrease along
the queue and differ by at most one, so that an id is visited at the level that
is its distance.

Main results:

- Theorem `queue_iterate_pop`: the loop ends after at most as many pops as there
  are starts and connections.
- Theorem `layers_pop`: a pop keeps the levels of the queue and the distances of
  the visited ids in order.
- Theorem `dryRun_breadthFirst`: a dry run visits exactly the ids within reach,
  once each, in order of their distance.
-/

namespace FlowGraph

namespace Traversal

/-! ## The loop, pop by pop -/

/-- A traversal and the ids visited so far, first first. -/
structure Journey where
  traversal : Traversal
  order : List String

namespace Journey

/-- A journey that has visited nothing. -/
def begin (starts : List String) : Journey := ⟨.start starts, []⟩

/-- Drop the first waiting id. -/
def drop (s : Journey) (rest : List String) : Journey :=
  { s with traversal := { s.traversal with queue := rest } }

/-- Visit the first waiting id. -/
def visit (s : Journey) (id : String) (rest hops : List String) : Journey :=
  ⟨(s.drop rest).traversal.complete id hops, s.order ++ [id]⟩

end Journey

section

variable (w : Workflow) (defaults : RouterDefaults) (outputOf : Node → Json)

/-- The ids that an id's output selects: every target of a disabled node, and
otherwise the next hops; an id without a node selects none. -/
def hops (id : String) : List String :=
  match w.node? id with
  | some node =>
      if node.disabled then w.graph.fanOut node.id
      else w.graph.nextHops defaults node (some (outputOf node))
  | none => []

/-- One pop of the queue; an empty queue stays as it is. -/
def pop (s : Journey) : Journey :=
  match s.traversal.queue with
  | [] => s
  | id :: rest =>
      if s.traversal.isExecuted id then s.drop rest
      else
        match w.node? id with
        | none => s.drop rest
        | some _ => s.visit id rest (hops w defaults outputOf id)

theorem hops_of_node {id : String} {node : Node} (hnode : w.node? id = some node) :
    hops w defaults outputOf id = successors w defaults node (some (outputOf node)) := by
  simp only [hops, hnode, successors]

theorem isSome_node?_of_mem_hops {id next : String}
    (hnext : next ∈ hops w defaults outputOf id) : (w.node? next).isSome = true := by
  cases hnode : w.node? id with
  | none => simp [hops, hnode] at hnext
  | some node =>
      rw [hops_of_node w defaults outputOf hnode] at hnext
      exact Workflow.isSome_node?_of_mem_successors hnext

/-- What a pop can do: nothing on an empty queue, drop an id that is executed or
has no node, or visit an id. -/
theorem pop_cases (s : Journey) :
    (s.traversal.queue = [] ∧ pop w defaults outputOf s = s) ∨
    (∃ id rest, s.traversal.queue = id :: rest ∧
      (id ∈ s.traversal.executed ∨ w.node? id = none) ∧
      pop w defaults outputOf s = s.drop rest) ∨
    (∃ id rest node, s.traversal.queue = id :: rest ∧ id ∉ s.traversal.executed ∧
      w.node? id = some node ∧
      pop w defaults outputOf s = s.visit id rest (hops w defaults outputOf id)) := by
  cases hqueue : s.traversal.queue with
  | nil => exact .inl ⟨rfl, by simp only [pop, hqueue]⟩
  | cons id rest =>
      by_cases hid : id ∈ s.traversal.executed
      · refine .inr (.inl ⟨id, rest, rfl, .inl hid, ?_⟩)
        simp [pop, hqueue, isExecuted, hid]
      · cases hnode : w.node? id with
        | none =>
            refine .inr (.inl ⟨id, rest, rfl, .inr hnode, ?_⟩)
            simp [pop, hqueue, hnode]
        | some node =>
            refine .inr (.inr ⟨id, rest, node, rfl, hid, hnode, ?_⟩)
            simp [pop, hqueue, isExecuted, hid, hnode]

/-! ## The loop ends -/

/-- A pop of a queue that holds an id leaves less to take. -/
theorem remaining_pop_lt {s : Journey} (hqueue : s.traversal.queue ≠ []) :
    (pop w defaults outputOf s).traversal.remaining w.connections <
      s.traversal.remaining w.connections := by
  rcases pop_cases w defaults outputOf s with
    ⟨hempty, _⟩ | ⟨id, rest, hcons, _, hpop⟩ | ⟨id, rest, node, hcons, hid, hnode, hpop⟩
  · exact (hqueue hempty).elim
  · rw [hpop]
    simp [remaining, Journey.drop, hcons]
  · have hlength := w.length_successors_le defaults node (some (outputOf node))
    rw [Workflow.id_of_node? hnode, ← hops_of_node w defaults outputOf hnode] at hlength
    have hle := remaining_complete_le (t := (s.drop rest).traversal) hid hlength
    have hdrop : (s.drop rest).traversal.remaining w.connections <
        s.traversal.remaining w.connections := by
      simp [remaining, Journey.drop, hcons]
    rw [hpop]
    exact Nat.lt_of_le_of_lt hle hdrop

/-- After as many pops as there are ids to take the queue is empty. -/
theorem queue_iterate_pop (pops : Nat) (s : Journey)
    (hpops : s.traversal.remaining w.connections ≤ pops) :
    ((pop w defaults outputOf)^[pops] s).traversal.queue = [] := by
  induction pops generalizing s with
  | zero =>
      have hlength : s.traversal.queue.length = 0 := by
        unfold remaining at hpops
        omega
      exact List.length_eq_zero_iff.mp hlength
  | succ pops ih =>
      by_cases hqueue : s.traversal.queue = []
      · have hfixed : pop w defaults outputOf s = s := by
          simp only [pop, hqueue]
        rw [Function.iterate_fixed hfixed]
        exact hqueue
      · have hlt := remaining_pop_lt w defaults outputOf hqueue
        rw [Function.iterate_succ_apply]
        exact ih _ (by omega)

/-- Walking on from a journey visits the same ids before and after a pop. -/
theorem walkFrom_pop (s : Journey) :
    walkFrom (m := Id) w defaults outputOf (pop w defaults outputOf s).traversal
        (pop w defaults outputOf s).order.reverse =
      walkFrom (m := Id) w defaults outputOf s.traversal s.order.reverse := by
  rcases pop_cases w defaults outputOf s with
    ⟨_, hpop⟩ | ⟨id, rest, hcons, hdropped, hpop⟩ | ⟨id, rest, node, hcons, hid, hnode, hpop⟩
  · rw [hpop]
  · rw [hpop]
    have hsplit : s.traversal = ⟨id :: rest, s.traversal.executed⟩ := by
      rw [← hcons]
    by_cases hid : id ∈ s.traversal.executed
    · apply walkFrom_congr_next (m := Id)
      rw [hsplit, next_cons_of_mem hid]
      rfl
    · have hnext : s.traversal.next = (some id, (s.drop rest).traversal) := by
        rw [hsplit, next_cons_of_not_mem hid]
        rfl
      have hwalk := walkFrom_of_some (m := Id) w defaults outputOf s.order.reverse hnext
      rw [hdropped.resolve_left hid] at hwalk
      exact hwalk.symm
  · have hnext : s.traversal.next = (some id, (s.drop rest).traversal) := by
      have hsplit : s.traversal = ⟨id :: rest, s.traversal.executed⟩ := by
        rw [← hcons]
      rw [hsplit, next_cons_of_not_mem hid]
      rfl
    rw [hpop, walkFrom_of_node w defaults outputOf _ hnext hnode,
      ← hops_of_node w defaults outputOf hnode]
    simp only [Journey.visit, List.reverse_append, List.reverse_cons, List.reverse_nil,
      List.nil_append, List.singleton_append]

/-- As many pops as there are starts and connections leave an empty queue and
the ids of the dry run. -/
theorem iterate_pop_begin (starts : List String) :
    ∃ executed, (pop w defaults outputOf)^[starts.length + w.connections.length] (.begin starts) =
      ⟨⟨[], executed⟩, dryOrder w defaults outputOf starts⟩ := by
  let last := (pop w defaults outputOf)^[starts.length + w.connections.length] (.begin starts)
  have hwalk : ∀ n, walkFrom (m := Id) w defaults outputOf
      ((pop w defaults outputOf)^[n] (.begin starts)).traversal
      ((pop w defaults outputOf)^[n] (.begin starts)).order.reverse =
        walkFrom (m := Id) w defaults outputOf (start starts) [] := by
    intro n
    induction n with
    | zero => rfl
    | succ n ih => rw [Function.iterate_succ_apply', walkFrom_pop, ih]
  have hempty : last.traversal.queue = [] :=
    queue_iterate_pop w defaults outputOf _ (.begin starts)
      (Nat.le_of_eq (remaining_start w.connections starts))
  have htraversal : last.traversal = ⟨[], last.traversal.executed⟩ := by
    rw [← hempty]
  have hnext : last.traversal.next = (none, ⟨[], last.traversal.executed⟩) := by
    rw [htraversal]
    exact next_nil _
  have horder : last.order = dryOrder w defaults outputOf starts := by
    have hlast := walkFrom_of_none (m := Id) w defaults outputOf last.order.reverse hnext
    rw [List.reverse_reverse] at hlast
    rw [dryOrder_eq_walkFrom, ← hwalk (starts.length + w.connections.length)]
    exact hlast.symm
  exact ⟨last.traversal.executed, by rw [← htraversal, ← horder]⟩

/-! ## Reach and distance -/

variable (starts : List String)

/-- A set of ids that holds the declared starts and, with an id, all its
hops. -/
structure Closed (ids : Set String) : Prop where
  starts_mem : ∀ id ∈ starts, (w.node? id).isSome = true → id ∈ ids
  hops_mem : ∀ id ∈ ids, ∀ next ∈ hops w defaults outputOf id, next ∈ ids

/-- An id can be reached from a declared start by so many hops. -/
inductive HopsAway : Nat → String → Prop where
  | start {id : String} : id ∈ starts → (w.node? id).isSome = true → HopsAway 0 id
  | hop {n : Nat} {id next : String} :
      HopsAway n id → next ∈ hops w defaults outputOf id → HopsAway (n + 1) next

/-- The least number of hops that lead from a declared start to an id. -/
noncomputable def distance (id : String) : Nat :=
  sInf {n | HopsAway w defaults outputOf starts n id}

variable {w defaults outputOf starts}

/-- The distance of an id is at most the number of hops of any way to it. -/
theorem HopsAway.distance_le {n : Nat} {id : String}
    (haway : HopsAway w defaults outputOf starts n id) :
    distance w defaults outputOf starts id ≤ n :=
  Nat.sInf_le haway

/-- Some way to an id has as many hops as its distance. -/
theorem HopsAway.at_distance {n : Nat} {id : String}
    (haway : HopsAway w defaults outputOf starts n id) :
    HopsAway w defaults outputOf starts (distance w defaults outputOf starts id) id :=
  Nat.sInf_mem (s := {n | HopsAway w defaults outputOf starts n id}) ⟨n, haway⟩

/-- An id that can be reached is in every closed set. -/
theorem HopsAway.mem_of_closed {n : Nat} {id : String} {ids : Set String}
    (haway : HopsAway w defaults outputOf starts n id)
    (hclosed : Closed w defaults outputOf starts ids) : id ∈ ids := by
  induction haway with
  | start hid hknown => exact hclosed.starts_mem _ hid hknown
  | hop _ hnext ih => exact hclosed.hops_mem _ ih _ hnext

/-! ## The levels of the queue -/

variable (w defaults outputOf starts)

/-- Levels for the waiting ids of a journey.  A level is the number of hops by
which its id was reached; levels do not decrease along the queue and span at
most two numbers; ids are visited in order of their distance, and what an id or
the starts lead to is visited or waits at a level that is low enough. -/
structure Layers (s : Journey) (waiting : List (String × Nat)) : Prop where
  queue_eq : s.traversal.queue = waiting.map Prod.fst
  mem_executed_iff : ∀ id, id ∈ s.traversal.executed ↔ id ∈ s.order
  nodup : s.order.Nodup
  sorted : (s.order.map (distance w defaults outputOf starts) ++
    waiting.map Prod.snd).Pairwise (· ≤ ·)
  span : ∀ a ∈ waiting, ∀ b ∈ waiting, b.2 ≤ a.2 + 1
  waiting_away : ∀ a ∈ waiting, (w.node? a.1).isSome = true →
    HopsAway w defaults outputOf starts a.2 a.1
  order_away : ∀ id ∈ s.order, ∃ n, HopsAway w defaults outputOf starts n id
  starts_met : ∀ id ∈ starts, (w.node? id).isSome = true →
    id ∈ s.order ∨ (id, 0) ∈ waiting
  hops_met : ∀ id ∈ s.order, ∀ next ∈ hops w defaults outputOf id,
    next ∈ s.order ∨
      ∃ level, level ≤ distance w defaults outputOf starts id + 1 ∧ (next, level) ∈ waiting

variable {w defaults outputOf starts}

/-- At the beginning the starts wait at level zero. -/
theorem layers_begin :
    Layers w defaults outputOf starts (.begin starts) (starts.map fun id => (id, 0)) where
  queue_eq := by
    simp [Journey.begin, start, Function.comp_def]
  mem_executed_iff := by
    simp [Journey.begin, start]
  nodup := List.nodup_nil
  sorted := by
    simp [Journey.begin, List.pairwise_map, List.pairwise_of_forall]
  span := by
    intro a _ b hb
    rcases List.mem_map.mp hb with ⟨id, _, rfl⟩
    exact Nat.zero_le _
  waiting_away := by
    intro a ha hknown
    rcases List.mem_map.mp ha with ⟨id, hid, rfl⟩
    exact .start hid hknown
  order_away := by
    simp [Journey.begin]
  starts_met := by
    intro id hid _
    exact .inr (List.mem_map_of_mem hid)
  hops_met := by
    simp [Journey.begin]

/-- An id that can be reached by so many hops has been visited, or something
still waits at a level that is no higher. -/
theorem Layers.visited_or_waiting {s : Journey} {waiting : List (String × Nat)}
    (hlayers : Layers w defaults outputOf starts s waiting) {n : Nat} {id : String}
    (haway : HopsAway w defaults outputOf starts n id) :
    id ∈ s.order ∨ ∃ a ∈ waiting, a.2 ≤ n := by
  induction haway with
  | start hid hknown =>
      rcases hlayers.starts_met _ hid hknown with hvisited | hwaits
      · exact .inl hvisited
      · exact .inr ⟨_, hwaits, Nat.le_refl 0⟩
  | @hop n id next haway hnext ih =>
      rcases ih with hvisited | ⟨a, ha, hle⟩
      · rcases hlayers.hops_met id hvisited next hnext with hmet | ⟨level, hlevel, hwaits⟩
        · exact .inl hmet
        · have hdistance := haway.distance_le
          exact .inr ⟨_, hwaits, by omega⟩
      · exact .inr ⟨a, ha, Nat.le_succ_of_le hle⟩

/-- The first waiting id, unless it was visited, waits at its distance. -/
theorem Layers.level_eq_distance {s : Journey} {id : String} {level : Nat}
    {waiting : List (String × Nat)}
    (hlayers : Layers w defaults outputOf starts s ((id, level) :: waiting))
    (hid : id ∉ s.order) (hknown : (w.node? id).isSome = true) :
    level = distance w defaults outputOf starts id := by
  have haway := hlayers.waiting_away _ List.mem_cons_self hknown
  apply Nat.le_antisymm _ haway.distance_le
  have hsorted := (List.pairwise_append.mp hlayers.sorted).2.1
  rw [List.map_cons, List.pairwise_cons] at hsorted
  rcases hlayers.visited_or_waiting haway.at_distance with hvisited | ⟨a, ha, hle⟩
  · exact (hid hvisited).elim
  · rcases List.mem_cons.mp ha with rfl | ha
    · exact hle
    · exact (hsorted.1 a.2 (List.mem_map_of_mem ha)).trans hle

/-- What waits is the first waiting id or waits behind it. -/
theorem eq_or_waits {other id : String} {found level : Nat} {waiting : List (String × Nat)}
    (hwaits : (other, found) ∈ (id, level) :: waiting) :
    other = id ∨ (other, found) ∈ waiting := by
  rcases List.mem_cons.mp hwaits with heq | hwaits
  · exact .inl (congrArg Prod.fst heq)
  · exact .inr hwaits

/-- Dropping an id that was visited or has no node keeps the levels. -/
theorem Layers.drop {s : Journey} {id : String} {level : Nat} {rest : List String}
    {waiting : List (String × Nat)}
    (hlayers : Layers w defaults outputOf starts s ((id, level) :: waiting))
    (hqueue : s.traversal.queue = id :: rest)
    (hdropped : id ∈ s.order ∨ w.node? id = none) :
    Layers w defaults outputOf starts (s.drop rest) waiting := by
  have hvisited : ∀ other, (w.node? other).isSome = true → other = id → other ∈ s.order := by
    rintro other hknown rfl
    rcases hdropped with hvisited | hnone
    · exact hvisited
    · rw [hnone] at hknown
      contradiction
  exact {
    queue_eq := by
      have hcons := hlayers.queue_eq
      rw [hqueue, List.map_cons, List.cons.injEq] at hcons
      exact hcons.2
    mem_executed_iff := hlayers.mem_executed_iff
    nodup := hlayers.nodup
    sorted := by
      refine hlayers.sorted.sublist ?_
      rw [List.map_cons]
      exact List.Sublist.append_left (List.sublist_cons_self _ _) _
    span := fun a ha b hb =>
      hlayers.span a (List.mem_cons_of_mem _ ha) b (List.mem_cons_of_mem _ hb)
    waiting_away := fun a ha => hlayers.waiting_away a (List.mem_cons_of_mem _ ha)
    order_away := hlayers.order_away
    starts_met := by
      intro other hother hknown
      rcases hlayers.starts_met other hother hknown with hmet | hwaits
      · exact .inl hmet
      · exact (eq_or_waits hwaits).imp_left (hvisited other hknown)
    hops_met := by
      intro other hother next hnext
      rcases hlayers.hops_met other hother next hnext with hmet | ⟨found, hle, hwaits⟩
      · exact .inl hmet
      · have hknown := isSome_node?_of_mem_hops w defaults outputOf hnext
        exact (eq_or_waits hwaits).imp (hvisited next hknown) fun hwaits => ⟨found, hle, hwaits⟩ }

/-- The ids that wait behind the first one, and its hops, wait at its level or at
the next. -/
theorem Layers.level_bounds {s : Journey} {id : String} {level : Nat}
    {waiting : List (String × Nat)}
    (hlayers : Layers w defaults outputOf starts s ((id, level) :: waiting)) (more : List String) :
    ∀ a ∈ waiting ++ more.map fun next => (next, level + 1), level ≤ a.2 ∧ a.2 ≤ level + 1 := by
  intro a ha
  rcases List.mem_append.mp ha with hwaits | hnew
  · have hsorted := (List.pairwise_append.mp hlayers.sorted).2.1
    rw [List.map_cons, List.pairwise_cons] at hsorted
    exact ⟨hsorted.1 a.2 (List.mem_map_of_mem hwaits),
      hlayers.span _ List.mem_cons_self a (List.mem_cons_of_mem _ hwaits)⟩
  · rcases List.mem_map.mp hnew with ⟨next, _, rfl⟩
    exact ⟨Nat.le_succ _, Nat.le_refl _⟩

/-- The popped level moves from the queue to the visited ids and stays where it
was, and the hops come last. -/
theorem Layers.sorted_visit {s : Journey} {id : String} {level : Nat}
    {waiting : List (String × Nat)}
    (hlayers : Layers w defaults outputOf starts s ((id, level) :: waiting))
    (hdistance : level = distance w defaults outputOf starts id) (more : List String) :
    ((s.order ++ [id]).map (distance w defaults outputOf starts) ++
      (waiting ++ more.map fun next => (next, level + 1)).map Prod.snd).Pairwise (· ≤ ·) := by
  have hmoved : (s.order ++ [id]).map (distance w defaults outputOf starts) ++
      waiting.map Prod.snd =
        s.order.map (distance w defaults outputOf starts) ++
          ((id, level) :: waiting).map Prod.snd := by
    simp [← hdistance]
  rw [List.map_append (f := Prod.snd), ← List.append_assoc, hmoved, List.pairwise_append]
  refine ⟨hlayers.sorted, ?_, ?_⟩
  · rw [List.map_map, List.pairwise_map]
    exact List.pairwise_of_forall fun _ _ => Nat.le_refl _
  · intro a ha b hb
    rw [List.map_map, List.mem_map] at hb
    rcases hb with ⟨next, _, rfl⟩
    rcases List.mem_append.mp ha with hvisited | hwaits
    · have hle := (List.pairwise_append.mp hlayers.sorted).2.2 a hvisited level (by simp)
      exact Nat.le_succ_of_le hle
    · rw [List.map_cons, List.mem_cons] at hwaits
      rcases hwaits with rfl | hwaits
      · exact Nat.le_succ _
      · rcases List.mem_map.mp hwaits with ⟨other, hother, rfl⟩
        exact (hlayers.level_bounds [] other (List.mem_append_left _ hother)).2

/-- Visiting the first waiting id lets its hops wait one level higher. -/
theorem Layers.visit {s : Journey} {id : String} {level : Nat} {rest : List String}
    {waiting : List (String × Nat)}
    (hlayers : Layers w defaults outputOf starts s ((id, level) :: waiting))
    (hqueue : s.traversal.queue = id :: rest) (hid : id ∉ s.order)
    (hknown : (w.node? id).isSome = true) :
    Layers w defaults outputOf starts (s.visit id rest (hops w defaults outputOf id))
      (waiting ++ (hops w defaults outputOf id).map fun next => (next, level + 1)) := by
  have hdistance := hlayers.level_eq_distance hid hknown
  have haway := hlayers.waiting_away _ List.mem_cons_self hknown
  have hbounds := hlayers.level_bounds (hops w defaults outputOf id)
  have hlast : ∀ {other}, other = id → other ∈ s.order ++ [id] := by
    rintro other rfl
    exact List.mem_append_right _ List.mem_cons_self
  constructor
  · have hcons := hlayers.queue_eq
    rw [hqueue, List.map_cons, List.cons.injEq] at hcons
    simp [Journey.visit, Journey.drop, hcons.2, Function.comp_def]
  · intro other
    rw [Journey.visit, mem_complete_executed, List.mem_append, List.mem_singleton, or_comm]
    exact or_congr_left (hlayers.mem_executed_iff other)
  · refine List.nodup_append.mpr ⟨hlayers.nodup, List.nodup_singleton id, ?_⟩
    rintro a ha b hb rfl
    exact hid (List.mem_singleton.mp hb ▸ ha)
  · exact hlayers.sorted_visit hdistance _
  · intro a ha b hb
    have := hbounds a ha
    have := hbounds b hb
    omega
  · intro a ha hknown'
    rcases List.mem_append.mp ha with hwaits | hnew
    · exact hlayers.waiting_away a (List.mem_cons_of_mem _ hwaits) hknown'
    · rcases List.mem_map.mp hnew with ⟨next, hnext, rfl⟩
      exact .hop haway hnext
  · intro other hother
    rcases List.mem_append.mp hother with hvisited | hother
    · exact hlayers.order_away other hvisited
    · exact ⟨level, List.mem_singleton.mp hother ▸ haway⟩
  · intro other hother hknown'
    rcases hlayers.starts_met other hother hknown' with hmet | hwaits
    · exact .inl (List.mem_append_left _ hmet)
    · exact (eq_or_waits hwaits).imp hlast (List.mem_append_left _)
  · intro other hother next hnext
    rcases List.mem_append.mp hother with hvisited | hother
    · rcases hlayers.hops_met other hvisited next hnext with hmet | ⟨found, hle, hwaits⟩
      · exact .inl (List.mem_append_left _ hmet)
      · exact (eq_or_waits hwaits).imp hlast fun hwaits =>
          ⟨found, hle, List.mem_append_left _ hwaits⟩
    · obtain rfl := List.mem_singleton.mp hother
      refine .inr ⟨level + 1, by omega, List.mem_append_right _ ?_⟩
      exact List.mem_map_of_mem hnext

/-- A pop keeps the levels of the queue. -/
theorem layers_pop {s : Journey} {waiting : List (String × Nat)}
    (hlayers : Layers w defaults outputOf starts s waiting) :
    ∃ waiting', Layers w defaults outputOf starts (pop w defaults outputOf s) waiting' := by
  rcases pop_cases w defaults outputOf s with
    ⟨_, hpop⟩ | ⟨id, rest, hcons, hdropped, hpop⟩ | ⟨id, rest, node, hcons, hid, hnode, hpop⟩
  · rw [hpop]
    exact ⟨waiting, hlayers⟩
  all_goals
    have hqueue := hlayers.queue_eq
    rw [hcons] at hqueue
    rcases waiting with _ | ⟨⟨first, level⟩, waiting⟩
    · simp at hqueue
    rw [List.map_cons, List.cons.injEq] at hqueue
    obtain rfl : id = first := hqueue.1
    rw [hpop]
  · rw [hlayers.mem_executed_iff] at hdropped
    exact ⟨waiting, hlayers.drop hcons hdropped⟩
  · rw [hlayers.mem_executed_iff] at hid
    exact ⟨_, hlayers.visit hcons hid (by rw [hnode]; rfl)⟩

variable (w defaults outputOf starts)

/-- Every state of the loop has levels for its queue. -/
theorem layers_iterate (pops : Nat) :
    ∃ waiting, Layers w defaults outputOf starts
      ((pop w defaults outputOf)^[pops] (.begin starts)) waiting := by
  induction pops with
  | zero => exact ⟨_, layers_begin⟩
  | succ pops ih =>
      rcases ih with ⟨waiting, hlayers⟩
      rw [Function.iterate_succ_apply']
      exact layers_pop hlayers

variable {w defaults outputOf starts} in
/-- With an empty queue, the visited ids hold the starts and all hops. -/
theorem Layers.closed {s : Journey} (hlayers : Layers w defaults outputOf starts s []) :
    Closed w defaults outputOf starts {id | id ∈ s.order} where
  starts_mem id hid hknown := by
    simpa using hlayers.starts_met id hid hknown
  hops_mem id hid next hnext := by
    simpa using hlayers.hops_met id hid next hnext

/-- A dry run is a breadth-first search along the selected hops.  Its loop ends
with an empty queue after at most as many pops as there are starts and
connections; the ids it visits are distinct; they are the least set that holds
the declared starts and with an id all its hops; and their distances from the
starts never decrease. -/
theorem dryRun_breadthFirst :
    (∃ executed, (pop w defaults outputOf)^[starts.length + w.connections.length] (.begin starts) =
      ⟨⟨[], executed⟩, dryOrder w defaults outputOf starts⟩) ∧
    (dryOrder w defaults outputOf starts).Nodup ∧
    IsLeast {ids : Set String | Closed w defaults outputOf starts ids}
      {id | id ∈ dryOrder w defaults outputOf starts} ∧
    (dryOrder w defaults outputOf starts).Pairwise fun first second =>
      distance w defaults outputOf starts first ≤ distance w defaults outputOf starts second := by
  rcases iterate_pop_begin w defaults outputOf starts with ⟨executed, hlast⟩
  rcases layers_iterate w defaults outputOf starts (starts.length + w.connections.length) with
    ⟨waiting, hlayers⟩
  rw [hlast] at hlayers
  have hnone : waiting = [] := List.map_eq_nil_iff.mp hlayers.queue_eq.symm
  subst hnone
  have hsorted := (List.pairwise_append.mp hlayers.sorted).1
  rw [List.pairwise_map] at hsorted
  refine ⟨⟨executed, hlast⟩, hlayers.nodup, ⟨hlayers.closed, ?_⟩, hsorted⟩
  intro ids hclosed id hid
  rcases hlayers.order_away id hid with ⟨n, haway⟩
  exact haway.mem_of_closed hclosed

end

end Traversal

end FlowGraph
