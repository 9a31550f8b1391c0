import FlowGraph.Proofs.Workflow.BreadthFirst
import FlowGraph.Workflow.Lint

/-!
# Nodes within reach

The lint follows every connection, whatever its label, while a run takes one
label at each enabled router.  Both meet the same ids once the outputs may be
chosen.  One direction holds because hops are targets.  For the other, outputs
are chosen along a shortest way: no id stands on it twice, so the choices at its
routers do not get in each other's way.

Main results:

- Theorem `mem_reachable_iff`: the lint's search meets exactly the ids that
  connections join to a start.
- Theorem `mem_dryOrder_iff`: a dry run visits exactly the ids that its outputs
  lead to.
- Theorem `exists_outputs_of_joined`: an id that connections join to a start is
  visited for some outputs.
- Theorem `lint_unreachable_exact`: the lint reports as out of reach exactly the
  nodes that no outputs make a dry run visit.
-/

namespace FlowGraph

namespace Workflow

variable (w : Workflow)

/-! ## What the lint's search meets -/

/-- So many connections, whatever their labels, lead from a start to an id. -/
inductive Joined : Nat → String → Prop where
  | start {id : String} : id ∈ w.graph.starts → Joined 0 id
  | follow {n : Nat} {id next : String} :
      Joined n id → next ∈ w.graph.fanOut id → Joined (n + 1) next

/-- The search has met only ids that are joined to a start, and what the starts
and the executed ids lead to was executed or waits. -/
structure Searched (t : Traversal) : Prop where
  joined : ∀ id, id ∈ t.executed ∨ id ∈ t.queue → ∃ n, Joined w n id
  starts_met : ∀ id ∈ w.graph.starts, id ∈ t.executed ∨ id ∈ t.queue
  targets_met : ∀ id ∈ t.executed, ∀ next ∈ w.graph.fanOut id,
    next ∈ t.executed ∨ next ∈ t.queue

/-- At the beginning the starts wait. -/
theorem searched_start : Searched w (.start w.graph.starts) where
  joined := by
    rintro id (hexecuted | hqueued)
    · simp [Traversal.start] at hexecuted
    · exact ⟨0, .start hqueued⟩
  starts_met id hid := .inr hid
  targets_met := by
    intro id hid
    simp [Traversal.start] at hid

variable {w}

/-- Completing the next id by all its targets goes on with the search. -/
theorem Searched.complete {t t' : Traversal} {id : String} (hsearched : Searched w t)
    (hnext : t.next = (some id, t')) : Searched w (t'.complete id (w.graph.fanOut id)) := by
  rcases Traversal.next_eq_some hnext with ⟨_, hexecuted, dropped, hqueue, hdropped⟩
  -- what was met before is met still: the ids before `id` were executed
  have hmet : ∀ {other}, other ∈ t.executed ∨ other ∈ t.queue →
      other ∈ (t'.complete id (w.graph.fanOut id)).executed ∨
        other ∈ (t'.complete id (w.graph.fanOut id)).queue := by
    intro other hother
    rw [Traversal.mem_complete_executed, hexecuted, Traversal.complete_queue, List.mem_append]
    rcases hother with hother | hother
    · exact .inl (.inr hother)
    · rw [hqueue, List.mem_append, List.mem_cons] at hother
      rcases hother with hother | rfl | hother
      · exact .inl (.inr (hdropped other hother))
      · exact .inl (.inl rfl)
      · exact .inr (.inl hother)
  have hid : id ∈ t.queue := by
    rw [hqueue]
    exact List.mem_append_right _ List.mem_cons_self
  rcases hsearched.joined id (.inr hid) with ⟨n, hjoined⟩
  constructor
  · intro other hother
    rw [Traversal.mem_complete_executed, hexecuted, Traversal.complete_queue, List.mem_append]
      at hother
    rcases hother with (rfl | hother) | hother | hother
    · exact ⟨n, hjoined⟩
    · exact hsearched.joined other (.inl hother)
    · refine hsearched.joined other (.inr ?_)
      rw [hqueue]
      exact List.mem_append_right _ (List.mem_cons_of_mem _ hother)
    · exact ⟨n + 1, .follow hjoined hother⟩
  · exact fun other hother => hmet (hsearched.starts_met other hother)
  · intro other hother next htarget
    rw [Traversal.mem_complete_executed, hexecuted] at hother
    rcases hother with rfl | hother
    · exact .inr (List.mem_append_right _ htarget)
    · exact hmet (hsearched.targets_met other hother next htarget)

/-- A search with nothing left to execute has executed every joined id. -/
theorem Searched.mem_executed_iff {t : Traversal} (hsearched : Searched w t)
    (hdone : ∀ id ∈ t.queue, id ∈ t.executed) (id : String) :
    id ∈ t.executed ↔ ∃ n, Joined w n id := by
  constructor
  · exact fun hid => hsearched.joined id (.inl hid)
  · rintro ⟨n, hjoined⟩
    induction hjoined with
    | start hid => exact (hsearched.starts_met _ hid).elim (fun h => h) (hdone _)
    | follow _ hnext ih => exact (hsearched.targets_met _ ih _ hnext).elim (fun h => h) (hdone _)

/-- With a bound that is large enough, the search meets every joined id. -/
theorem mem_reachFrom_iff (fuel : Nat) {t : Traversal} (hsearched : Searched w t)
    (hfuel : t.remaining w.connections ≤ fuel) (id : String) :
    id ∈ reachFrom w.graph fuel t ↔ ∃ n, Joined w n id := by
  induction fuel generalizing t with
  | zero =>
      rcases Traversal.next_of_remaining_eq_zero (Nat.le_zero.mp hfuel) with ⟨t', hnext⟩
      exact hsearched.mem_executed_iff (Traversal.next_eq_none hnext).1 id
  | succ fuel ih =>
      rcases hnext : t.next with ⟨_ | first, t'⟩
      · obtain ⟨hdone, rfl⟩ := Traversal.next_eq_none hnext
        simp only [reachFrom, hnext]
        exact hsearched.mem_executed_iff hdone id
      · rcases Traversal.next_eq_some hnext with ⟨hfirst, hexecuted, _⟩
        have hlength : (w.graph.fanOut first).length ≤ (leaving w.connections first).length := by
          rw [fanOut_eq, List.length_map]
        have hlt := Traversal.remaining_next_lt w.connections hnext
        have hle := Traversal.remaining_complete_le (hexecuted ▸ hfirst) hlength
        simp only [reachFrom, hnext]
        exact ih (hsearched.complete hnext) (by omega)

/-- The lint's search meets exactly the ids that connections join to a start. -/
theorem mem_reachable_iff (id : String) : id ∈ w.reachable ↔ ∃ n, Joined w n id :=
  mem_reachFrom_iff _ (searched_start w)
    (Nat.le_of_eq (Traversal.remaining_start w.connections w.graph.starts)) id

end Workflow

namespace Traversal

open Workflow (Joined)

variable {w : Workflow} {defaults : RouterDefaults} {outputOf : Node → Json}

/-! ## What a dry run visits -/

/-- A dry run visits exactly the ids that its outputs lead to. -/
theorem mem_dryOrder_iff {starts : List String} {id : String} :
    id ∈ dryOrder w defaults outputOf starts ↔
      ∃ n, HopsAway w defaults outputOf starts n id := by
  rcases iterate_pop_begin w defaults outputOf starts with ⟨executed, hlast⟩
  rcases layers_iterate w defaults outputOf starts (starts.length + w.connections.length) with
    ⟨waiting, hlayers⟩
  rw [hlast] at hlayers
  obtain rfl : waiting = [] := List.map_eq_nil_iff.mp hlayers.queue_eq.symm
  constructor
  · exact hlayers.order_away id
  · rintro ⟨n, haway⟩
    exact haway.mem_of_closed hlayers.closed

/-- The hops that an output selects are targets. -/
theorem mem_fanOut_of_mem_hops {id next : String}
    (hnext : next ∈ hops w defaults outputOf id) : next ∈ w.graph.fanOut id := by
  cases hnode : w.node? id with
  | none => simp [hops, hnode] at hnext
  | some node =>
      rw [hops_of_node w defaults outputOf hnode] at hnext
      have htarget := (w.successors_sublist_fanOut defaults node _).subset hnext
      rwa [Workflow.id_of_node? hnode] at htarget

/-- What a dry run from the detected starts visits is joined to them. -/
theorem HopsAway.joined {n : Nat} {id : String}
    (haway : HopsAway w defaults outputOf w.graph.starts n id) : Joined w n id := by
  induction haway with
  | start hid _ => exact .start hid
  | hop _ hnext ih => exact .follow ih (mem_fanOut_of_mem_hops hnext)

/-! ## Choosing outputs -/

/-- An output that names a label. -/
def branchOutput (label : String) : Json := .object [(branchField, .string label)]

/-- A label with a character is read back from the output that names it. -/
theorem branchLabel_branchOutput {label : String} (hlabel : label ≠ "") :
    branchLabel (branchOutput label) = some label := by
  simp [branchLabel, branchOutput, Json.member?, branchLabelOf, hlabel]

/-- Every target of a node is selected by some output. -/
theorem exists_output_selecting (hlabels : ∀ c ∈ w.connections, c.sourceOutput ≠ "")
    (defaults : RouterDefaults) {id next : String} (hnext : next ∈ w.graph.fanOut id) :
    ∃ node output, w.node? id = some node ∧
      ∀ outputOf : Node → Json, outputOf node = output → next ∈ hops w defaults outputOf id := by
  rw [Workflow.fanOut_eq, List.mem_map] at hnext
  rcases hnext with ⟨c, hc, rfl⟩
  have hconnection : c ∈ w.connections ∧ c.source = id := by
    simpa [Workflow.leaving] using hc
  obtain ⟨hmem, rfl⟩ := hconnection
  obtain ⟨node, hnode⟩ := Option.isSome_iff_exists.mp (Workflow.isSome_node?_of_connection hmem).1
  have hid := Workflow.id_of_node? hnode
  have hall : c.target ∈ w.graph.fanOut node.id := by
    rw [hid, Workflow.fanOut_eq]
    exact List.mem_map_of_mem hc
  refine ⟨node, branchOutput c.sourceOutput, hnode, ?_⟩
  intro outputOf houtput
  rw [hops_of_node w defaults outputOf hnode, houtput, successors]
  split
  · exact hall
  · unfold Graph.nextHops
    split
    · rw [Option.bind_some, branchLabel_branchOutput (hlabels c hmem), Option.getD_some]
      have hedge : Edge.mk c.target c.sourceOutput ∈ w.graph.outgoing node.id := by
        rw [hid, w.graph_eq, Graph.outgoing_ofConnections]
        exact List.mem_map_of_mem hc
      exact List.mem_map_of_mem (f := Edge.target) (List.mem_filter.mpr ⟨hedge, by simp⟩)
    · exact hall
    · exact hall

/-- Along a shortest way the outputs that lead on can be chosen.  The choices
concern only the nodes that fewer connections join to a start, so that the next
choice, at the end of the way, leaves them as they are. -/
theorem exists_outputs_along (hlabels : ∀ c ∈ w.connections, c.sourceOutput ≠ "")
    (defaults : RouterDefaults) {n : Nat} {id : String} (hjoined : Joined w n id)
    (hshortest : ∀ k, Joined w k id → n ≤ k) :
    ∃ chosen : Node → Json, ∀ outputOf : Node → Json,
      (∀ node k, k < n → Joined w k node.id → outputOf node = chosen node) →
        HopsAway w defaults outputOf w.graph.starts n id := by
  induction hjoined with
  | start hid =>
      refine ⟨fun _ => .null, fun outputOf _ => .start hid ?_⟩
      exact Workflow.isSome_node?_of_mem_starts hid
  | @follow n id next hjoined hnext ih =>
      have hbefore : ∀ k, Joined w k id → n ≤ k := fun k hk =>
        Nat.le_of_succ_le_succ (hshortest (k + 1) (.follow hk hnext))
      obtain ⟨chosen, haway⟩ := ih hbefore
      obtain ⟨node, output, hnode, hselects⟩ :=
        exists_output_selecting hlabels defaults hnext
      have hid := Workflow.id_of_node? hnode
      classical
      refine ⟨Function.update chosen node output, fun outputOf hagree => ?_⟩
      have houtput : outputOf node = output := by
        rw [hagree node n (Nat.lt_succ_self n) (hid ▸ hjoined), Function.update_self]
      refine .hop (haway outputOf fun other k hk hother => ?_) (hselects outputOf houtput)
      have hne : other ≠ node := by
        rintro rfl
        have hle := hbefore k (hid ▸ hother)
        omega
      rw [hagree other k (Nat.lt_succ_of_lt hk) hother, Function.update_of_ne hne]

/-- An id that connections join to a start is visited for some outputs. -/
theorem exists_outputs_of_joined (hlabels : ∀ c ∈ w.connections, c.sourceOutput ≠ "")
    (defaults : RouterDefaults) {id : String} (hjoined : ∃ n, Joined w n id) :
    ∃ outputOf, id ∈ dryOrder w defaults outputOf w.graph.starts := by
  classical
  have hshortest : ∀ k, Joined w k id → Nat.find hjoined ≤ k := fun k => Nat.find_min' hjoined
  obtain ⟨chosen, haway⟩ :=
    exists_outputs_along hlabels defaults (Nat.find_spec hjoined) hshortest
  exact ⟨chosen, mem_dryOrder_iff.mpr ⟨_, haway chosen fun _ _ _ _ => rfl⟩⟩

/-- An id is joined to a start exactly when some outputs make a dry run from the
detected starts visit it, whatever the defaults of the routers. -/
theorem joined_iff_visited (hlabels : ∀ c ∈ w.connections, c.sourceOutput ≠ "")
    (defaults : RouterDefaults) (id : String) :
    (∃ n, Joined w n id) ↔ ∃ outputOf, id ∈ dryOrder w defaults outputOf w.graph.starts := by
  constructor
  · exact exists_outputs_of_joined hlabels defaults
  · rintro ⟨outputOf, hid⟩
    obtain ⟨n, haway⟩ := mem_dryOrder_iff.mp hid
    exact ⟨n, haway.joined⟩

end Traversal

namespace Workflow

/-! ## The findings of the lint -/

/-- The nodes that the lint's search does not meet, in declaration order. -/
def outOfReach (w : Workflow) : List Node :=
  w.nodes.filter fun node => !w.reachable.contains node.id

/-- The findings of the rule name the nodes that the search does not meet. -/
theorem lint_filter_unreachable (w : Workflow) :
    (w.lint.filter fun issue => issue.rule = "TWD101") =
      w.outOfReach.map fun node => .unreachable node.id := by
  simp [lint_filter_rule, outOfReach]

/-- The lint reports as out of reach exactly the nodes that no outputs make a dry
run from the detected starts visit, whatever the defaults of the routers.  It
names each of them once, in declaration order. -/
theorem lint_unreachable_exact (w : Workflow)
    (hlabels : ∀ c ∈ w.connections, c.sourceOutput ≠ "") :
    ∃ unreached : List Node,
      (w.lint.filter fun issue => issue.rule = "TWD101") =
        unreached.map (fun node => .unreachable node.id) ∧
      unreached.Sublist w.nodes ∧ (unreached.map Node.id).Nodup ∧
      ∀ (defaults : RouterDefaults), ∀ node ∈ w.nodes,
        node ∈ unreached ↔
          ∀ outputOf : Node → Json,
            node.id ∉ Traversal.dryOrder w defaults outputOf w.graph.starts := by
  have hsublist : w.outOfReach.Sublist w.nodes := List.filter_sublist
  refine ⟨w.outOfReach, w.lint_filter_unreachable, hsublist,
    w.nodup_ids.sublist (hsublist.map Node.id), ?_⟩
  intro defaults node hnode
  rw [← not_exists, ← Traversal.joined_iff_visited hlabels, ← mem_reachable_iff]
  simp [outOfReach, hnode]

/-- A trigger leads to a choice with one way on; two nodes lead to each other
only. -/
def choiceAndIsland : Workflow :=
  ofSound
    { nodes := [
        .new "start" "flow.manualTrigger", .new "check" "flow.if", .new "work" "flow.noOp",
        .new "here" "flow.noOp", .new "there" "flow.noOp"]
      connections := [
        { source := "start", target := "check" },
        { source := "check", sourceOutput := "true", target := "work" },
        { source := "here", target := "there" },
        { source := "there", target := "here" }] }
    ((Definition.violations_eq_nil_iff _).2 (by decide))

/-- Connections join only the choice and the work to the trigger. -/
theorem Joined.mem_choiceAndIsland {n : Nat} {id : String}
    (hjoined : Joined choiceAndIsland n id) : id ∈ ["start", "check", "work"] := by
  induction hjoined with
  | start hid =>
      rw [choiceAndIsland.graph_eq] at hid
      simp [Graph.ofParts, Graph.startsOf, choiceAndIsland, ofSound, Node.new,
        Std.HashSet.contains_insert] at hid
      simp [hid]
  | follow _ hnext ih =>
      rw [fanOut_eq] at hnext
      simp only [List.mem_cons, List.not_mem_nil, or_false] at ih
      rcases ih with rfl | rfl | rfl <;>
        simp [leaving, choiceAndIsland, connections, ofSound] at hnext <;> simp [hnext]

/-- The island is reported, and no outputs of the choice lead to it. -/
theorem lint_unreachable_exact_choiceAndIsland :
    (∀ c ∈ choiceAndIsland.connections, c.sourceOutput ≠ "") ∧
      Issue.unreachable "here" ∈ choiceAndIsland.lint ∧
      ∀ (defaults : RouterDefaults) (outputOf : Node → Json),
        "here" ∉ Traversal.dryOrder choiceAndIsland defaults outputOf
          choiceAndIsland.graph.starts := by
  have hlabels : ∀ c ∈ choiceAndIsland.connections, c.sourceOutput ≠ "" := by
    simp [choiceAndIsland, connections, ofSound, mainLabel]
  have hreported : Issue.unreachable "here" ∈
      choiceAndIsland.lint.filter fun issue => issue.rule = "TWD101" := by
    rw [lint_filter_unreachable]
    refine List.mem_map.mpr ⟨.new "here" "flow.noOp", List.mem_filter.mpr ⟨?_, ?_⟩, rfl⟩
    · simp [choiceAndIsland, nodes, ofSound]
    · have hfar : "here" ∉ choiceAndIsland.reachable := by
        rw [mem_reachable_iff]
        rintro ⟨n, hjoined⟩
        exact absurd hjoined.mem_choiceAndIsland (by decide)
      simpa [Node.new] using hfar
  refine ⟨hlabels, List.mem_of_mem_filter hreported, ?_⟩
  intro defaults outputOf
  obtain ⟨unreached, hlint, hsublist, _, hexact⟩ := lint_unreachable_exact _ hlabels
  rw [hlint] at hreported
  obtain ⟨node, hnode, hid⟩ := List.mem_map.mp hreported
  have hunvisited := (hexact defaults node (hsublist.subset hnode)).mp hnode outputOf
  have hhere : node.id = "here" := by simpa [Issue.unreachable] using hid
  rwa [hhere] at hunvisited

end Workflow

end FlowGraph
