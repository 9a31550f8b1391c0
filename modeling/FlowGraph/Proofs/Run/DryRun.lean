import FlowGraph.Proofs.Run.Failures

/-!
# Runs follow the dry run

A run and a dry run choose the next node in separate loops.  This module shows
that they never part: give the dry run the outputs that a run recorded, and an
empty object for a node that failed, and walking on from the run's queue is at
every moment what is left of the dry run.

Main results:

- Theorem `follows_step`: every step keeps a run on its dry run.
- Theorem `run_refines_dryRun`: a completed run visits the ids of its dry run,
  and a failed run those up to the failure.
-/

namespace FlowGraph

namespace Run

/-! ## Outputs of a run as an output function -/

/-- The output recorded for a node, an empty object for one that left none, and
anything for a node without a result. -/
def outputIn (results : List NodeResult) (otherwise : Node → Json) (node : Node) : Json :=
  match results.find? fun result => result.nodeId = node.id with
  | some result => result.output.getD .emptyObject
  | none => otherwise node

/-- An output function gives what the results of enabled nodes recorded. -/
def Agrees (w : Workflow) (results : List NodeResult) (outputOf : Node → Json) : Prop :=
  ∀ result ∈ results, ∀ node, w.node? result.nodeId = some node → node.disabled = false →
    outputOf node = result.output.getD .emptyObject

/-- The recorded outputs agree with results of distinct nodes. -/
theorem agrees_outputIn (w : Workflow) {results : List NodeResult}
    (hnodup : (results.map NodeResult.nodeId).Nodup) (otherwise : Node → Json) :
    Agrees w results (outputIn results otherwise) := by
  intro result hresult node hnode _
  have hid : result.nodeId = node.id := (Workflow.id_of_node? hnode).symm
  cases hfound : results.find? fun other => other.nodeId = node.id with
  | none =>
      have hnone := List.find?_eq_none.mp hfound result hresult
      simp [hid] at hnone
  | some other =>
      have hother : other.nodeId = node.id := by
        simpa using List.find?_some hfound
      obtain rfl := List.inj_on_of_nodup_map hnodup (List.mem_of_find?_eq_some hfound) hresult
        (hother.trans hid.symm)
      simp only [outputIn, hfound]

/-- An output function that agrees with more results agrees with fewer. -/
theorem Agrees.of_append {w : Workflow} {results more : List NodeResult}
    {outputOf : Node → Json} (hagrees : Agrees w (results ++ more) outputOf) :
    Agrees w results outputOf :=
  fun result hresult => hagrees result (List.mem_append_left _ hresult)

/-- A failure selects the hops of an empty output. -/
theorem nextHops_none (g : Graph) (defaults : RouterDefaults) (node : Node) :
    g.nextHops defaults node none = g.nextHops defaults node (some .emptyObject) :=
  rfl

/-! ## The rest of the run is the rest of the dry run -/

variable (c : RunContext) (starts : List String)

/-- Walking on from a queue, after the ids visited so far, is what is left of
the dry run. -/
def LeftOver (r : Run) (t : Traversal) : Prop :=
  ∀ outputOf, Agrees c.workflow r.results outputOf →
    Id.run (Traversal.walkFrom (m := Id) c.workflow c.defaults outputOf t r.visited.reverse) =
      Traversal.dryOrder c.workflow c.defaults outputOf starts

/-- A run keeps to the dry run with its outputs.  The id that it dispatches or
waits for counts as the next one; a run that is over has visited all ids or the
first ones. -/
def Follows (r : Run) : Prop :=
  match r.phase with
  | .dispatching node =>
      LeftOver c starts r ⟨node.id :: r.traversal.queue, r.traversal.executed⟩
  | .held id => LeftOver c starts r ⟨id :: r.traversal.queue, r.traversal.executed⟩
  | .ended .completed =>
      ∀ outputOf, Agrees c.workflow r.results outputOf →
        r.visited = Traversal.dryOrder c.workflow c.defaults outputOf starts
  | .ended _ =>
      ∀ outputOf, Agrees c.workflow r.results outputOf →
        r.visited <+: Traversal.dryOrder c.workflow c.defaults outputOf starts
  | _ => LeftOver c starts r r.traversal

variable {c starts}

/-- A new run has its whole dry run before it. -/
theorem follows_initial (input : Json) : Follows c starts (.initial starts input) := by
  intro outputOf _
  rw [Traversal.dryOrder_eq_walkFrom]
  rfl

/-- The ids visited so far are the first of the dry run. -/
theorem LeftOver.prefix_dryOrder {r : Run} {t : Traversal} (hleft : LeftOver c starts r t)
    {outputOf : Node → Json} (hagrees : Agrees c.workflow r.results outputOf) :
    r.visited <+: Traversal.dryOrder c.workflow c.defaults outputOf starts := by
  have hfirst := Traversal.reverse_prefix_walkFrom c.workflow c.defaults outputOf t
    r.visited.reverse
  rwa [hleft outputOf hagrees, List.reverse_reverse] at hfirst

/-- Taking the next id from the queue and putting it back in front changes
nothing. -/
theorem LeftOver.take_next {r : Run} {id : String} {rest : Traversal}
    (hleft : LeftOver c starts r r.traversal) (hnext : r.traversal.next = (some id, rest)) :
    LeftOver c starts r ⟨id :: rest.queue, rest.executed⟩ := by
  intro outputOf hagrees
  rw [← hleft outputOf hagrees]
  rcases Traversal.next_eq_some hnext with ⟨hid, hexecuted, _⟩
  congr 1
  apply Traversal.walkFrom_congr_next (m := Id)
  rw [hnext, Traversal.next_cons_of_not_mem (hexecuted ▸ hid)]

/-- Completing the first id of the queue with the hops that its node selects
leaves the rest of the dry run. -/
theorem LeftOver.complete {r : Run} {node : Node} {output : Option Json}
    (hleft : LeftOver c starts r ⟨node.id :: r.traversal.queue, r.traversal.executed⟩)
    (hnode : c.workflow.node? node.id = some node) (hid : node.id ∉ r.traversal.executed)
    {r' : Run} {result : NodeResult} (hresults : r'.results = r.results ++ [result])
    (hresult : result.nodeId = node.id)
    (houtput : node.disabled = false → output = some (result.output.getD .emptyObject)) :
    LeftOver c starts r'
      (r.traversal.complete node.id
        (Traversal.successors c.workflow c.defaults node output)) := by
  intro outputOf hagrees
  rw [hresults] at hagrees
  have hvisited : r'.visited.reverse = node.id :: r.visited.reverse := by
    simp [visited, hresults, hresult]
  have hhops : Traversal.successors c.workflow c.defaults node output =
      Traversal.successors c.workflow c.defaults node (some (outputOf node)) := by
    cases hdisabled : node.disabled with
    | true => rw [Traversal.successors_of_disabled _ _ hdisabled,
        Traversal.successors_of_disabled _ _ hdisabled]
    | false =>
        have hrecorded := hagrees result (List.mem_append_right _ List.mem_cons_self) node
          (hresult ▸ hnode) hdisabled
        rw [houtput hdisabled, hrecorded]
  have hnext : Traversal.next ⟨node.id :: r.traversal.queue, r.traversal.executed⟩ =
      (some node.id, r.traversal) :=
    Traversal.next_cons_of_not_mem hid
  have hwalk := Traversal.walkFrom_of_node c.workflow c.defaults outputOf r.visited.reverse
    hnext hnode
  rw [hvisited, hhops, ← hleft outputOf hagrees.of_append, hwalk]

/-- Visiting the first id of the queue keeps to the dry run. -/
theorem LeftOver.visit {r : Run} {id : String}
    (hleft : LeftOver c starts r ⟨id :: r.traversal.queue, r.traversal.executed⟩)
    (hid : id ∉ r.traversal.executed) : Follows c starts (r.visit c id) := by
  rcases visit_cases (c := c) r id with
    ⟨hnone, hvisit⟩ | ⟨node, hnode, hdisabled, hvisit⟩ | ⟨node, hnode, _, hvisit⟩ <;> rw [hvisit]
  · intro outputOf hagrees
    have hnext : Traversal.next ⟨id :: r.traversal.queue, r.traversal.executed⟩ =
        (some id, r.traversal) :=
      Traversal.next_cons_of_not_mem hid
    have hwalk := Traversal.walkFrom_of_some (m := Id) c.workflow c.defaults outputOf
      r.visited.reverse hnext
    rw [hnone] at hwalk
    rw [← hleft outputOf hagrees, hwalk]
    rfl
  · obtain rfl := Workflow.id_of_node? hnode
    let skipped := r.record (.skipped node) (.nodeSkipped node.id)
      (c.workflow.graph.fanOut node.id)
    have hcomplete : LeftOver c starts skipped (r.traversal.complete node.id
        (Traversal.successors c.workflow c.defaults node none)) :=
      hleft.complete hnode hid rfl rfl (by simp [hdisabled])
    rw [Traversal.successors_of_disabled _ _ hdisabled] at hcomplete
    exact hcomplete
  · obtain rfl := Workflow.id_of_node? hnode
    exact hleft

/-- Taking the answer for the dispatched node keeps to the dry run. -/
theorem LeftOver.take {r : Run} {node : Node}
    (hleft : LeftOver c starts r ⟨node.id :: r.traversal.queue, r.traversal.executed⟩)
    (hnode : c.workflow.node? node.id = some node) (henabled : node.disabled = false)
    (hid : node.id ∉ r.traversal.executed) (reply : Reply) :
    Follows c starts (r.take c node reply) := by
  rcases take_cases (c := c) r node reply with
    ⟨d, _, htake⟩ | ⟨e, _, _, htake⟩ | ⟨e, _, _, htake⟩ <;> rw [htake]
  · let answered := { r with payload := d.output }.record (.ofReply node (.ok d))
      (.nodeCompleted node.id d.output d.attempts)
      (c.workflow.graph.nextHops c.defaults node (some d.output))
    have hcomplete : LeftOver c starts answered (r.traversal.complete node.id
        (Traversal.successors c.workflow c.defaults node (some d.output))) :=
      hleft.complete hnode hid rfl rfl fun _ => rfl
    rw [Traversal.successors_of_enabled _ _ henabled] at hcomplete
    exact hcomplete
  · let failed := r.record (.ofReply node (.error e)) (.nodeFailed e.nodeId e.message e.attempts)
      (c.workflow.graph.nextHops c.defaults node none)
    have hcomplete : LeftOver c starts failed (r.traversal.complete node.id
        (Traversal.successors c.workflow c.defaults node (some .emptyObject))) :=
      hleft.complete hnode hid rfl rfl fun _ => rfl
    rw [Traversal.successors_of_enabled _ _ henabled, ← nextHops_none] at hcomplete
    exact hcomplete
  · -- The dry run would go on with the hops of an empty output.
    let failed := r.record (.ofReply node (.error e)) (.nodeFailed e.nodeId e.message e.attempts) []
    have hcomplete : LeftOver c starts failed (r.traversal.complete node.id
        (Traversal.successors c.workflow c.defaults node (some .emptyObject))) :=
      hleft.complete hnode hid rfl rfl fun _ => rfl
    intro outputOf hagrees
    exact hcomplete.prefix_dryOrder hagrees

variable {dispatcher : Dispatcher} {signals : Signal → Prop}

/-- Every step keeps a run on its dry run. -/
theorem follows_step {r r' : Run} (hstep : Step c dispatcher signals r r')
    (hvisits : Visits c.workflow r) (hahead : Ahead c.workflow r)
    (hfollows : Follows c starts r) : Follows c starts r' := by
  cases hstep with
  | @signal s _ _ => cases s <;> exact hfollows
  | begin hphase =>
      simp only [Follows, hphase] at hfollows
      exact hfollows
  | cancel hphase _ =>
      intro outputOf hagrees
      rcases hphase with hphase | ⟨id, hphase⟩ <;> simp only [Follows, hphase] at hfollows
      · exact hfollows.prefix_dryOrder hagrees
      · exact hfollows.prefix_dryOrder hagrees
  | complete hphase _ hnext =>
      simp only [Follows, hphase] at hfollows
      intro outputOf hagrees
      have hwalk := Traversal.walkFrom_of_none (m := Id) c.workflow c.defaults outputOf
        r.visited.reverse hnext
      rw [← hfollows outputOf hagrees, hwalk]
      exact (List.reverse_reverse r.visited).symm
  | hold hphase _ _ hnext =>
      simp only [Follows, hphase] at hfollows
      exact hfollows.take_next hnext
  | @reach id rest hphase _ _ hnext =>
      simp only [Follows, hphase] at hfollows
      rcases Traversal.next_eq_some hnext with ⟨hid, hexecuted, _⟩
      have htaken : LeftOver c starts { r with traversal := rest }
          ⟨id :: rest.queue, rest.executed⟩ :=
        hfollows.take_next hnext
      exact htaken.visit (hexecuted ▸ hid)
  | @resume id hphase _ _ =>
      simp only [Follows, hphase] at hfollows
      simp only [Ahead, hphase] at hahead
      rw [← hvisits.mem_executed_iff] at hahead
      have hresumed : LeftOver c starts (r.announce .runResumed)
          ⟨id :: r.traversal.queue, r.traversal.executed⟩ :=
        hfollows
      exact hresumed.visit hahead
  | answer hphase _ =>
      simp only [Follows, hphase] at hfollows
      simp only [Ahead, hphase, ← hvisits.mem_executed_iff] at hahead
      exact hfollows.take hahead.1 hahead.2.1 hahead.2.2 _

/-! ## Every run refines its dry run -/

/-- What holds of every state of every run: it visits distinct nodes, on its dry
run, and the failures and the dispatches are as they should be. -/
theorem Leads.follows {input : Json} {r : Run}
    (hleads : Leads c dispatcher signals (.initial starts input) r) :
    Follows c starts r ∧ Failures c.workflow r ∧ Dispatches r := by
  have hfollows : Follows c starts r := by
    apply hleads.induction_visits (follows_initial input)
    intro r r' hstep hvisits hahead hfollows
    exact follows_step hstep hvisits hahead hfollows
  exact ⟨hfollows, hleads.failures, hleads.dispatches⟩

/-- A run that is over and was not asked to cancel agrees with the dry run with
its recorded outputs, whatever the dispatcher answered.  If it completed, the
results are those of the dry run's ids in order, and only nodes that allow it
failed.  If it failed, they are the first ids of the dry run up to the one node
that does not allow its failure, and nothing was dispatched after this node. -/
theorem run_refines_dryRun {w : Workflow} {defaults : RouterDefaults} {input : Json} {r : Run}
    (hleads : Leads ⟨w, defaults⟩ dispatcher signals (.initial starts input) r)
    (hsignals : ¬ signals .cancel) {out : Outcome} (hout : r.outcome? = some out)
    (otherwise : Node → Json) :
    let order := Traversal.dryOrder w defaults (outputIn out.results otherwise) starts
    (out.status = .completed ∧ out.results.map NodeResult.nodeId = order ∧
        Tolerated w out.results) ∨
      (out.status = .failed ∧ out.results.map NodeResult.nodeId <+: order ∧
        ∃ before last, out.results = before ++ [last] ∧ Tolerated w before ∧ Fatal w last ∧
          startedIds r.events = dispatchedIds before ++ [last.nodeId]) := by
  rcases hleads.follows with ⟨hfollows, hfailures, hdispatches⟩
  have huncancelled := hleads.uncancelled hsignals
  rcases outcome?_eq_some hout with ⟨ending, hphase, hstatus, hresults⟩
  have hagrees := agrees_outputIn w hleads.visits.1.nodup otherwise
  rw [hstatus, hresults, hphase]
  simp only [Follows, hphase] at hfollows
  cases ending with
  | completed =>
      simp only [Failures, hphase] at hfailures
      exact .inl ⟨rfl, hfollows _ hagrees, hfailures⟩
  | cancelled => exact absurd hphase huncancelled.2
  | failed e =>
      simp only [Failures, hphase] at hfailures
      rcases hfailures with ⟨before, last, hlast, hbefore, hfatal, _⟩
      refine .inr ⟨rfl, hfollows _ hagrees, before, last, hlast, hbefore, hfatal, ?_⟩
      rw [hdispatches, hlast, dispatchedIds_append, hfatal.1]
      simp [inFlight, hphase]

/-- In the loop, a failure of the trigger ends the run after the first id of the
dry run. -/
theorem run_refines_dryRun_choiceLoop :
    let e : ActivityError := ⟨"start", .failed "unplugged", 1⟩
    let result := NodeResult.ofReply (.new "start" "flow.manualTrigger") (.error e)
    ∃ r, Leads ⟨.choiceLoop, {}⟩ (.ofFunction fun _ _ => .error e) (fun _ => False)
        (.initial ["start"] .null) r ∧
      r.outcome? = some ⟨.failed, [result], .null, some e.message⟩ ∧
      ["start"] <+:
        Traversal.dryOrder .choiceLoop {} (outputIn [result] fun _ => .null) ["start"] ∧
      startedIds r.events = ["start"] := by
  intro e result
  have hnode := Workflow.node?_choiceLoop
  rcases outcome?_of_failed_start (c := ⟨.choiceLoop, {}⟩) [] hnode rfl rfl .null e with
    ⟨hphase, hout⟩
  have hleads : Leads ⟨.choiceLoop, {}⟩ (.ofFunction fun _ _ => .error e) (fun _ => False)
      (.initial ["start"] .null)
      (((initial ["start"] .null).wake ⟨.choiceLoop, {}⟩).answer ⟨.choiceLoop, {}⟩ (.error e)) :=
    .tail (.single .wake) (.answer hphase rfl)
  refine ⟨_, hleads, hout, ?_⟩
  rcases run_refines_dryRun hleads (by simp) hout (fun _ => .null) with
    ⟨hcompleted, _⟩ | ⟨_, hfirst, before, last, hresults, _, _, hstarted⟩
  · simp at hcompleted
  · refine ⟨hfirst, ?_⟩
    have hlength := congrArg List.length hresults
    rw [List.length_append, List.length_singleton, List.length_singleton] at hlength
    obtain rfl : before = [] := List.length_eq_zero_iff.mp (by omega)
    obtain rfl : result = last := List.singleton_inj.mp hresults
    exact hstarted

end Run

end FlowGraph
