import FlowGraph.Proofs.Workflow.Declared

/-!
# The walk without its bound

A walk stops at a bound on the ids it takes.  This module measures how many ids
a traversal can still take and shows that the bound is never what ends a walk:
it goes on until no id waits.  Later modules use the equations of
`walkFrom`, which mention no bound.

Main results:

- Theorems `next_eq_none` and `next_eq_some`: what taking the next id does.
- Theorem `remaining_complete_le`: completing an id adds no more to the queue
  than the connections it uses up.
- Theorems `walkFrom_of_none` and `walkFrom_of_some`: the walk goes on exactly
  while an id waits.
-/

namespace FlowGraph

namespace Traversal

/-! ## Taking the next id -/

/-- No id waits when all in the queue are executed. -/
theorem firstWaiting_eq_none_iff (executed : Std.HashSet String) (queue : List String) :
    firstWaiting executed queue = none ↔ ∀ id ∈ queue, id ∈ executed := by
  induction queue with
  | nil => simp [firstWaiting]
  | cons id rest ih =>
      unfold firstWaiting
      by_cases hid : id ∈ executed
      · simp [hid, ih]
      · simp [hid]

/-- The first waiting id is preceded by executed ids only. -/
theorem firstWaiting_eq_some {executed : Std.HashSet String} {queue rest : List String}
    {id : String} (hfirst : firstWaiting executed queue = some (id, rest)) :
    id ∉ executed ∧
      ∃ dropped, queue = dropped ++ id :: rest ∧ ∀ other ∈ dropped, other ∈ executed := by
  induction queue with
  | nil => simp [firstWaiting] at hfirst
  | cons head tail ih =>
      unfold firstWaiting at hfirst
      by_cases hhead : head ∈ executed
      · rw [if_pos (Std.HashSet.contains_iff_mem.2 hhead)] at hfirst
        rcases ih hfirst with ⟨hid, dropped, htail, hdropped⟩
        refine ⟨hid, head :: dropped, by rw [htail]; rfl, ?_⟩
        intro other hother
        rcases List.mem_cons.mp hother with rfl | hother
        · exact hhead
        · exact hdropped other hother
      · rw [if_neg (by simpa using hhead)] at hfirst
        simp only [Option.some.injEq, Prod.mk.injEq] at hfirst
        rcases hfirst with ⟨rfl, rfl⟩
        exact ⟨hhead, [], rfl, by simp⟩

/-- Without a next id, all waiting ids are executed and none is left. -/
theorem next_eq_none {t t' : Traversal} (hnext : t.next = (none, t')) :
    (∀ id ∈ t.queue, id ∈ t.executed) ∧ t' = ⟨[], t.executed⟩ := by
  unfold next at hnext
  split at hnext
  · simp at hnext
  · rename_i hfirst
    simp only [Prod.mk.injEq, true_and] at hnext
    exact ⟨(firstWaiting_eq_none_iff _ _).1 hfirst, hnext.symm⟩

/-- The next id is not executed and only executed ids stood before it. -/
theorem next_eq_some {t t' : Traversal} {id : String} (hnext : t.next = (some id, t')) :
    id ∉ t.executed ∧ t'.executed = t.executed ∧
      ∃ dropped, t.queue = dropped ++ id :: t'.queue ∧
        ∀ other ∈ dropped, other ∈ t.executed := by
  unfold next at hnext
  split at hnext
  · rename_i first rest hfirst
    simp only [Prod.mk.injEq, Option.some.injEq] at hnext
    rcases hnext with ⟨rfl, rfl⟩
    rcases firstWaiting_eq_some hfirst with ⟨hid, hdropped⟩
    exact ⟨hid, rfl, hdropped⟩
  · simp at hnext

/-- When all that wait are declared, so are the next id and those that wait after it. -/
theorem declared_of_next {w : Workflow} {t t' : Traversal} {id : String}
    (hqueue : ∀ other ∈ t.queue, (w.node? other).isSome = true) (hnext : t.next = (some id, t')) :
    (w.node? id).isSome = true ∧ ∀ other ∈ t'.queue, (w.node? other).isSome = true := by
  rcases next_eq_some hnext with ⟨_, _, dropped, hsplit, _⟩
  rw [hsplit] at hqueue
  refine ⟨hqueue id (by simp), ?_⟩
  intro other hother
  exact hqueue other (by simp [hother])

/-- An id at the head of the queue that is not executed is the next one. -/
theorem next_cons_of_not_mem {id : String} {rest : List String} {executed : Std.HashSet String}
    (hid : id ∉ executed) :
    next ⟨id :: rest, executed⟩ = (some id, ⟨rest, executed⟩) := by
  simp [next, firstWaiting, hid]

/-- An executed id at the head of the queue is passed over. -/
theorem next_cons_of_mem {id : String} {rest : List String} {executed : Std.HashSet String}
    (hid : id ∈ executed) :
    next ⟨id :: rest, executed⟩ = next ⟨rest, executed⟩ := by
  simp [next, firstWaiting, hid]

/-- There is no next id in an empty queue. -/
theorem next_nil (executed : Std.HashSet String) :
    next ⟨[], executed⟩ = (none, ⟨[], executed⟩) :=
  rfl

@[simp]
theorem complete_queue (t : Traversal) (id : String) (successors : List String) :
    (t.complete id successors).queue = t.queue ++ successors :=
  rfl

@[simp]
theorem mem_complete_executed (t : Traversal) (id other : String) (successors : List String) :
    other ∈ (t.complete id successors).executed ↔ other = id ∨ other ∈ t.executed := by
  unfold complete
  rw [Std.HashSet.mem_insert, beq_iff_eq, eq_comm]

/-! ## How many ids can still be taken -/

/-- The ids a traversal can still take: those that wait, and the targets of
connections whose source is not executed. -/
def remaining (connections : List Connection) (t : Traversal) : Nat :=
  t.queue.length + (connections.filter fun c => !t.executed.contains c.source).length

/-- A traversal that has executed nothing can take its starts and all targets. -/
theorem remaining_start (connections : List Connection) (ids : List String) :
    (start ids).remaining connections = ids.length + connections.length := by
  simp [remaining, start]

/-- Taking the next id leaves at least one id less to take. -/
theorem remaining_next_lt (connections : List Connection) {t t' : Traversal} {id : String}
    (hnext : t.next = (some id, t')) :
    t'.remaining connections < t.remaining connections := by
  rcases next_eq_some hnext with ⟨_, hexecuted, dropped, hqueue, _⟩
  unfold remaining
  rw [hexecuted, hqueue, List.length_append, List.length_cons]
  omega

/-- The connections of an id are those that completing it uses up. -/
theorem length_unused_add_leaving (connections : List Connection) {executed : Std.HashSet String}
    {id : String} (hid : id ∉ executed) :
    (connections.filter fun c => !(executed.insert id).contains c.source).length +
        (Workflow.leaving connections id).length =
      (connections.filter fun c => !executed.contains c.source).length := by
  unfold Workflow.leaving
  induction connections with
  | nil => rfl
  | cons c rest ih =>
      simp only [List.filter_cons]
      by_cases hsource : c.source = id
      · subst hsource
        have hin : (executed.insert c.source).contains c.source = true := by simp
        have hout : executed.contains c.source = false := by simpa using hid
        simp only [hin, hout, decide_true, Bool.not_true, Bool.not_false, if_true,
          List.length_cons, Bool.false_eq_true, if_false]
        omega
      · have hsame : (executed.insert id).contains c.source = executed.contains c.source := by
          simp [Std.HashSet.contains_insert, Ne.symm hsource]
        simp only [hsame, hsource, decide_false, Bool.false_eq_true, if_false]
        split
        · simp only [List.length_cons]
          omega
        · exact ih

/-- Completing an id that was not executed adds no more ids to the queue than
the connections it uses up. -/
theorem remaining_complete_le {connections : List Connection} {t : Traversal} {id : String}
    {successors : List String} (hid : id ∉ t.executed)
    (hlength : successors.length ≤ (Workflow.leaving connections id).length) :
    (t.complete id successors).remaining connections ≤ t.remaining connections := by
  have hused := length_unused_add_leaving connections hid
  simp only [remaining, complete, List.length_append]
  omega

/-- Completing the next id by a node's hops leaves less to take than before. -/
theorem remaining_complete_next_lt {w : Workflow} (defaults : RouterDefaults) {t t' : Traversal}
    {id : String} {node : Node} (output : Option Json) (hnext : t.next = (some id, t'))
    (hnode : w.node? id = some node) :
    (t'.complete id (successors w defaults node output)).remaining w.connections <
      t.remaining w.connections := by
  rcases next_eq_some hnext with ⟨hid, hexecuted, _⟩
  have hlength := w.length_successors_le defaults node output
  rw [Workflow.id_of_node? hnode] at hlength
  exact Nat.lt_of_le_of_lt (remaining_complete_le (hexecuted ▸ hid) hlength)
    (remaining_next_lt w.connections hnext)

/-- With nothing left to take there is no next id. -/
theorem next_of_remaining_eq_zero {connections : List Connection} {t : Traversal}
    (hzero : t.remaining connections = 0) :
    ∃ t', t.next = (none, t') := by
  rcases hnext : t.next with ⟨_ | id, t'⟩
  · exact ⟨t', rfl⟩
  · have hlt := remaining_next_lt connections hnext
    omega

/-! ## The walk without a bound -/

section Walk

variable {m : Type → Type} [Monad m] (w : Workflow) (defaults : RouterDefaults)
  (outputOf : Node → m Json)

/-- The output that a walk asks for at a node: none at a disabled one. -/
def askOutput (node : Node) : m (Option Json) :=
  if node.disabled then pure none else some <$> outputOf node

/-- A walk with a bound left asks the next node for its output and goes on with
the hops it selects. -/
theorem walk_succ_of_node {fuel : Nat} {t t' : Traversal} {id : String} {node : Node}
    {visited : List String} (hnext : t.next = (some id, t')) (hnode : w.node? id = some node) :
    walk w defaults outputOf (fuel + 1) t visited =
      (askOutput outputOf node >>= fun output =>
        walk w defaults outputOf fuel
          (t'.complete id (successors w defaults node output)) (id :: visited)) := by
  unfold askOutput
  by_cases hdisabled : node.disabled = true
  · simp only [walk, hnext, hnode, hdisabled, if_true]
  · simp only [walk, hnext, hnode, hdisabled, Bool.false_eq_true, if_false]

/-- Two bounds that are both large enough give the same walk. -/
theorem walk_bound_irrelevant (fuel fuel' : Nat) (t : Traversal) (visited : List String)
    (hfuel : t.remaining w.connections ≤ fuel) (hfuel' : t.remaining w.connections ≤ fuel') :
    walk w defaults outputOf fuel t visited = walk w defaults outputOf fuel' t visited := by
  induction fuel generalizing fuel' t visited with
  | zero =>
      rcases next_of_remaining_eq_zero (Nat.le_zero.mp hfuel) with ⟨t', hnext⟩
      cases fuel' with
      | zero => rfl
      | succ fuel' => simp only [walk, hnext]
  | succ fuel ih =>
      cases fuel' with
      | zero =>
          rcases next_of_remaining_eq_zero (Nat.le_zero.mp hfuel') with ⟨t', hnext⟩
          simp only [walk, hnext]
      | succ fuel' =>
          rcases hnext : t.next with ⟨_ | id, t'⟩
          · simp only [walk, hnext]
          · have hlt := remaining_next_lt w.connections hnext
            cases hnode : w.node? id with
            | none =>
                simp only [walk, hnext, hnode]
                exact ih fuel' t' visited (by omega) (by omega)
            | some node =>
                simp only [walk_succ_of_node w defaults outputOf hnext hnode]
                congr 1
                funext output
                have hcomplete := remaining_complete_next_lt defaults output hnext hnode
                exact ih fuel' _ _ (by omega) (by omega)

/-- Walk on until no id waits. -/
def walkFrom (t : Traversal) (visited : List String) : m (List String) :=
  walk w defaults outputOf (t.remaining w.connections) t visited

/-- A walk whose bound is large enough goes on until no id waits. -/
theorem walk_eq_walkFrom {fuel : Nat} {t : Traversal} (visited : List String)
    (hfuel : t.remaining w.connections ≤ fuel) :
    walk w defaults outputOf fuel t visited = walkFrom w defaults outputOf t visited :=
  walk_bound_irrelevant w defaults outputOf fuel _ t visited hfuel (Nat.le_refl _)

/-- A dry run goes on until no id waits. -/
theorem dryRun_eq_walkFrom (starts : List String) :
    dryRun w starts defaults outputOf = walkFrom w defaults outputOf (start starts) [] :=
  walk_eq_walkFrom w defaults outputOf [] (Nat.le_of_eq (remaining_start w.connections starts))

/-- The walk ends when no id waits. -/
theorem walkFrom_of_none {t t' : Traversal} (visited : List String)
    (hnext : t.next = (none, t')) :
    walkFrom w defaults outputOf t visited = pure visited.reverse := by
  unfold walkFrom
  cases t.remaining w.connections with
  | zero => rfl
  | succ fuel => simp only [walk, hnext]

/-- The walk takes the next id: it passes over one without a node, and otherwise
asks for the node's output and goes on with the hops it selects. -/
theorem walkFrom_of_some {t t' : Traversal} {id : String} (visited : List String)
    (hnext : t.next = (some id, t')) :
    walkFrom w defaults outputOf t visited =
      match w.node? id with
      | none => walkFrom w defaults outputOf t' visited
      | some node =>
          askOutput outputOf node >>= fun output =>
            walkFrom w defaults outputOf
              (t'.complete id (successors w defaults node output)) (id :: visited) := by
  have hlt := remaining_next_lt w.connections hnext
  rcases hfuel : t.remaining w.connections with _ | fuel
  · omega
  · have hwalk : walkFrom w defaults outputOf t visited =
        walk w defaults outputOf (fuel + 1) t visited := by
      rw [walkFrom, hfuel]
    rw [hwalk]
    cases hnode : w.node? id with
    | none =>
        simp only [walk, hnext, hnode]
        exact walk_eq_walkFrom w defaults outputOf visited (by omega)
    | some node =>
        rw [walk_succ_of_node w defaults outputOf hnext hnode]
        congr 1
        funext output
        have hcomplete := remaining_complete_next_lt defaults output hnext hnode
        exact walk_eq_walkFrom w defaults outputOf _ (by omega)

/-- What a walk does depends on the queue only through the next id. -/
theorem walkFrom_congr_next {t t' : Traversal} (visited : List String)
    (hnext : t.next = t'.next) :
    walkFrom w defaults outputOf t visited = walkFrom w defaults outputOf t' visited := by
  rcases hfound : t'.next with ⟨_ | id, rest⟩
  · rw [walkFrom_of_none w defaults outputOf visited hfound,
      walkFrom_of_none w defaults outputOf visited (hnext.trans hfound)]
  · rw [walkFrom_of_some w defaults outputOf visited hfound,
      walkFrom_of_some w defaults outputOf visited (hnext.trans hfound)]

end Walk

/-! ## Walks with known outputs -/

section Known

variable (w : Workflow) (defaults : RouterDefaults) (outputOf : Node → Json)

/-- The ids that a dry run visits with known outputs. -/
def dryOrder (starts : List String) : List String :=
  Id.run (dryRun (m := Id) w starts defaults outputOf)

/-- The ids of a dry run are those of the walk from its starts. -/
theorem dryOrder_eq_walkFrom (starts : List String) :
    dryOrder w defaults outputOf starts =
      Id.run (walkFrom (m := Id) w defaults outputOf (start starts) []) :=
  congrArg Id.run (dryRun_eq_walkFrom (m := Id) w defaults outputOf starts)

/-- A disabled node's hops do not depend on an output. -/
theorem successors_of_disabled {node : Node} (hdisabled : node.disabled = true)
    (output : Option Json) :
    successors w defaults node output = w.graph.fanOut node.id := by
  simp [successors, hdisabled]

/-- The hops of an enabled node are those its output selects. -/
theorem successors_of_enabled {node : Node} (henabled : node.disabled = false)
    (output : Option Json) :
    successors w defaults node output = w.graph.nextHops defaults node output := by
  simp [successors, henabled]

/-- With known outputs, the walk goes on with the hops of the next node. -/
theorem walkFrom_of_node {t t' : Traversal} {id : String} {node : Node} (visited : List String)
    (hnext : t.next = (some id, t')) (hnode : w.node? id = some node) :
    walkFrom (m := Id) w defaults outputOf t visited =
      walkFrom (m := Id) w defaults outputOf
        (t'.complete id (successors w defaults node (some (outputOf node))))
        (id :: visited) := by
  refine (walkFrom_of_some (m := Id) w defaults outputOf visited hnext).trans ?_
  rw [hnode]
  cases hdisabled : node.disabled with
  | true =>
      rw [successors_of_disabled w defaults hdisabled]
      simp only [askOutput, hdisabled, if_true]
      show walkFrom (m := Id) w defaults outputOf
        (t'.complete id (successors w defaults node none)) (id :: visited) = _
      rw [successors_of_disabled w defaults hdisabled]
  | false =>
      simp only [askOutput, hdisabled, Bool.false_eq_true, if_false]
      rfl

/-- A walk starts with the ids visited before. -/
theorem reverse_prefix_walkFrom (t : Traversal) (visited : List String) :
    visited.reverse <+: Id.run (walkFrom (m := Id) w defaults outputOf t visited) := by
  induction hmeasure : t.remaining w.connections using Nat.strongRecOn
    generalizing t visited with
  | ind measure ih =>
      rcases hnext : t.next with ⟨_ | id, t'⟩
      · have hwalk := walkFrom_of_none (m := Id) w defaults outputOf visited hnext
        rw [hwalk]
        exact List.prefix_rfl
      · have hlt := remaining_next_lt w.connections hnext
        cases hnode : w.node? id with
        | none =>
            have hwalk := walkFrom_of_some (m := Id) w defaults outputOf visited hnext
            rw [hnode] at hwalk
            rw [hwalk]
            exact ih _ (hmeasure ▸ hlt) t' visited rfl
        | some node =>
            rw [walkFrom_of_node w defaults outputOf visited hnext hnode]
            have hcomplete := remaining_complete_next_lt defaults (some (outputOf node))
              hnext hnode
            have hlonger := ih _ (hmeasure ▸ hcomplete) _ (id :: visited) rfl
            rw [List.reverse_cons] at hlonger
            exact (List.prefix_append _ _).trans hlonger

end Known

/-- In the loop, the choice comes after the trigger. -/
theorem next_choiceLoop (output : Option Json) :
    (complete ⟨[], ∅⟩ "start" (Workflow.choiceLoop.graph.nextHops {}
      (.new "start" "flow.manualTrigger") output)).next =
        (some "check", ⟨[], (∅ : Std.HashSet String).insert "start"⟩) := by
  rw [Workflow.nextHops_choiceLoop]
  exact next_cons_of_not_mem (by simp)

end Traversal

end FlowGraph
