import FlowGraph.Proofs.Run.Visits
import FlowGraph.Workflow.Lint

/-!
# Routers without labels

The lint reports a router whose connections are all unlabelled, and says that none
of them will fire.  A connection without a label carries the label `main`, however,
and a router may choose `main` like any other label; and behind a disabled node
every connection fires, whatever its label.  This module determines what a run
goes on with after a reported router: all its targets in these two cases, and
nothing in any other.

Main results:

- Theorem `traversal_of_recorded`: a step that keeps a result lets exactly the hops of
  the result's node wait, or nothing when it ends the run.
- Theorem `successors_of_isUnlabelledRouter`: the hops of a reported router are all of
  its targets or none.
- Theorem `lint_unlabelledRouter_exact`: the lint reports exactly the routers with
  connections of which none has a label, and when their connections fire in a run.
-/

namespace FlowGraph

namespace RouterDefaults

/-! ## The choice of a router -/

/-- The label that a router chooses after an output, or after its failure. -/
def choice? (defaults : RouterDefaults) (node : Node) (output : Option Json) : Option String :=
  match NodeKind.ofTag node.typeTag with
  | .router kind => some ((output.bind branchLabel).getD (defaults.label node kind))
  | .trigger | .activity => none

/-- Whether the unlabelled connections of a router fire: it is disabled, or the label
that it chooses is the one that they carry. -/
def firesUnlabelled (defaults : RouterDefaults) (node : Node) (output : Option Json) : Bool :=
  node.disabled || defaults.choice? node output = some mainLabel

variable (defaults : RouterDefaults)

/-- A router chooses a label. -/
theorem exists_choice? {node : Node} (hrouter : (NodeKind.ofTag node.typeTag).isRouter = true)
    (output : Option Json) : ∃ label, defaults.choice? node output = some label := by
  cases hkind : NodeKind.ofTag node.typeTag with
  | router kind =>
      exact ⟨(output.bind branchLabel).getD (defaults.label node kind),
        by simp only [choice?, hkind]⟩
  | trigger => simp [hkind, NodeKind.isRouter] at hrouter
  | activity => simp [hkind, NodeKind.isRouter] at hrouter

variable {defaults}

/-- The hops of an enabled router are the targets of the label that it chooses. -/
theorem nextHops_of_choice? {node : Node} {output : Option Json} {label : String}
    (hchoice : defaults.choice? node output = some label) (g : Graph) :
    g.nextHops defaults node output = g.targetsFor node.id label := by
  cases hkind : NodeKind.ofTag node.typeTag with
  | router kind =>
      simp only [choice?, hkind, Option.some.injEq] at hchoice
      simp only [Graph.nextHops, hkind, hchoice]
  | trigger => simp [choice?, hkind] at hchoice
  | activity => simp [choice?, hkind] at hchoice

end RouterDefaults

namespace Workflow

variable {w : Workflow} {node : Node}

/-! ## What the lint reports -/

/-- A node is reported exactly when it is a router, connections leave it, and none of
them has a label of its own. -/
theorem isUnlabelledRouter_iff :
    w.isUnlabelledRouter node = true ↔
      (NodeKind.ofTag node.typeTag).isRouter = true ∧ leaving w.connections node.id ≠ [] ∧
        ∀ c ∈ leaving w.connections node.id, c.sourceOutput = mainLabel := by
  have hempty : w.graph.labels node.id = [] ↔ leaving w.connections node.id = [] := by
    simp [labels_eq, List.eq_nil_iff_forall_not_mem, List.mem_eraseDups]
  have hall : (∀ label ∈ w.graph.labels node.id, label = mainLabel) ↔
      ∀ c ∈ leaving w.connections node.id, c.sourceOutput = mainLabel := by
    simp [labels_eq, List.mem_eraseDups]
  rw [← hall, Ne, ← hempty]
  simp [isUnlabelledRouter, and_assoc]

/-- The lint reports every node that it finds to be a router without labels. -/
theorem unlabelledRouter_mem_lint (hnode : node ∈ w.nodes)
    (hreported : w.isUnlabelledRouter node = true) : .unlabelledRouter node.id ∈ w.lint := by
  have hfound : node ∈ w.nodes.filter w.isUnlabelledRouter :=
    List.mem_filter.mpr ⟨hnode, hreported⟩
  exact List.mem_append_right _
    (List.mem_map_of_mem (f := fun node => Issue.unlabelledRouter node.id) hfound)

/-- A reported router has targets. -/
theorem fanOut_ne_nil_of_isUnlabelledRouter (hreported : w.isUnlabelledRouter node = true) :
    w.graph.fanOut node.id ≠ [] := by
  rw [fanOut_eq, Ne, List.map_eq_nil_iff]
  exact (isUnlabelledRouter_iff.mp hreported).2.1

/-- Under the label that connections carry by themselves a reported router has all its
targets, and under any other label it has none. -/
theorem targetsFor_of_isUnlabelledRouter (hreported : w.isUnlabelledRouter node = true)
    (label : String) :
    w.graph.targetsFor node.id label =
      if label = mainLabel then w.graph.fanOut node.id else [] := by
  have hmain := (isUnlabelledRouter_iff.mp hreported).2.2
  rw [targetsFor_eq, fanOut_eq]
  by_cases hlabel : label = mainLabel
  · rw [if_pos hlabel, List.filter_eq_self.mpr]
    intro c hc
    simp [hmain c hc, hlabel]
  · rw [if_neg hlabel, List.map_eq_nil_iff, List.filter_eq_nil_iff]
    intro c hc
    simp [hmain c hc, Ne.symm hlabel]

/-- The hops of a reported router are all of its targets when it is disabled or chooses
the label that connections carry by themselves, and otherwise it has none. -/
theorem successors_of_isUnlabelledRouter (hreported : w.isUnlabelledRouter node = true)
    (defaults : RouterDefaults) (output : Option Json) :
    Traversal.successors w defaults node output =
      if defaults.firesUnlabelled node output then w.graph.fanOut node.id else [] := by
  obtain ⟨label, hchoice⟩ :=
    defaults.exists_choice? (isUnlabelledRouter_iff.mp hreported).1 output
  cases hdisabled : node.disabled with
  | true =>
      rw [Traversal.successors_of_disabled w defaults hdisabled]
      simp [RouterDefaults.firesUnlabelled, hdisabled]
  | false =>
      rw [Traversal.successors_of_enabled w defaults hdisabled,
        RouterDefaults.nextHops_of_choice? hchoice, targetsFor_of_isUnlabelledRouter hreported]
      simp [RouterDefaults.firesUnlabelled, hdisabled, hchoice]

end Workflow

namespace Run

/-! ## What a result lets wait -/

/-- What waits behind the node that the next step is about.  At a boundary the loop takes
the id of this node from the queue; suspended before it or in it, it has taken it. -/
def behind (r : Run) : Traversal :=
  match r.phase with
  | .between => r.traversal.next.2
  | _ => r.traversal

variable {c : RunContext} {dispatcher : Dispatcher} {signals : Signal → Prop}

/-- A visit that keeps a result passes over a disabled node and lets its hops wait. -/
theorem traversal_of_visit {r : Run} {id : String} {result : NodeResult}
    (hresults : (r.visit c id).results = r.results ++ [result]) :
    ∃ node, c.workflow.node? result.nodeId = some node ∧ (r.visit c id).isOver = false ∧
      (r.visit c id).traversal = r.traversal.complete node.id
        (Traversal.successors c.workflow c.defaults node result.output) := by
  rcases visit_cases (c := c) r id with
    ⟨_, hvisit⟩ | ⟨node, hnode, hdisabled, hvisit⟩ | ⟨node, _, _, hvisit⟩ <;>
    rw [hvisit] at hresults ⊢
  · simp at hresults
  · obtain rfl : NodeResult.skipped node = result := by
      simpa [record, announce] using hresults
    obtain rfl := Workflow.id_of_node? hnode
    refine ⟨node, hnode, rfl, ?_⟩
    rw [Traversal.successors_of_disabled _ _ hdisabled]
    rfl
  · simp [announce] at hresults

/-- An answer keeps the result of its node and lets the node's hops wait, or nothing
when it ends the run. -/
theorem traversal_of_take {r : Run} {node : Node} (henabled : node.disabled = false)
    (reply : Reply) :
    (r.take c node reply).results = r.results ++ [.ofReply node reply] ∧
      (r.take c node reply).traversal = r.traversal.complete node.id
        (if (r.take c node reply).isOver then []
        else Traversal.successors c.workflow c.defaults node
          (NodeResult.ofReply node reply).output) := by
  rw [Traversal.successors_of_enabled _ _ henabled]
  rcases take_cases (c := c) r node reply with
    ⟨d, rfl, htake⟩ | ⟨e, rfl, _, htake⟩ | ⟨e, rfl, _, htake⟩ <;> rw [htake] <;>
    exact ⟨rfl, rfl⟩

/-- A step that keeps a result lets exactly the hops of the result's node wait, or
nothing when it ends the run. -/
theorem traversal_of_recorded {r r' : Run} {result : NodeResult}
    (hstep : Step c dispatcher signals r r') (hahead : Ahead c.workflow r)
    (hresults : r'.results = r.results ++ [result]) :
    ∃ node, c.workflow.node? result.nodeId = some node ∧
      r'.traversal = r.behind.complete node.id
        (if r'.isOver then []
        else Traversal.successors c.workflow c.defaults node result.output) := by
  cases hstep with
  | @signal s _ _ => cases s <;> simp [signal] at hresults
  | begin _ => simp [announce] at hresults
  | cancel _ _ => simp [finish, announce] at hresults
  | complete _ _ _ => simp [finish, announce] at hresults
  | hold _ _ _ _ => simp [announce] at hresults
  | @reach id rest hphase _ _ hnext =>
      obtain ⟨node, hnode, hgoes, htraversal⟩ := traversal_of_visit hresults
      refine ⟨node, hnode, ?_⟩
      have hbehind : r.behind = rest := by
        simp [behind, hphase, hnext]
      rw [hbehind, htraversal, hgoes]
      rfl
  | @resume id hphase _ _ =>
      obtain ⟨node, hnode, hgoes, htraversal⟩ := traversal_of_visit hresults
      refine ⟨node, hnode, ?_⟩
      have hbehind : r.behind = r.traversal := by
        simp [behind, hphase]
      rw [hbehind, htraversal, hgoes]
      rfl
  | @answer node reply hphase _ =>
      simp only [Ahead, hphase] at hahead
      obtain ⟨hnode, henabled, _⟩ := hahead
      obtain ⟨hkept, htraversal⟩ := traversal_of_take (c := c) (r := r) henabled reply
      obtain rfl : NodeResult.ofReply node reply = result := by
        simpa [hkept] using hresults
      have hid : (NodeResult.ofReply node reply).nodeId = node.id := by
        cases reply <;> rfl
      have hbehind : r.behind = r.traversal := by
        simp [behind, hphase]
      rw [hid, hbehind]
      exact ⟨node, hnode, htraversal⟩

end Run

namespace Workflow

/-! ## When reported connections fire -/

/-- The lint reports exactly the routers that connections leave of which none has a
label, in declaration order.  Whatever the defaults, the handlers, the signals, the
starts and the input, a step of a run that keeps the result of a reported router lets
all its targets wait if the router is disabled or chose the label that connections carry
by themselves, and lets nothing wait otherwise or when the run ends with it. -/
theorem lint_unlabelledRouter_exact (w : Workflow) :
    ∃ routers : List Node,
      (w.lint.filter fun issue => issue.rule = "TWD102") =
        routers.map (fun node => .unlabelledRouter node.id) ∧
      routers.Sublist w.nodes ∧
      (∀ node ∈ w.nodes,
        node ∈ routers ↔
          (NodeKind.ofTag node.typeTag).isRouter = true ∧ leaving w.connections node.id ≠ [] ∧
            ∀ c ∈ leaving w.connections node.id, c.sourceOutput = mainLabel) ∧
      ∀ node ∈ routers, w.graph.fanOut node.id ≠ [] ∧
        ∀ (defaults : RouterDefaults) (dispatcher : Dispatcher) (starts : List String)
          (input : Json) (r r' : Run) (result : NodeResult),
          Run.Steps ⟨w, defaults⟩ dispatcher Run.AnySignal (.initial starts input) r →
          Run.Step ⟨w, defaults⟩ dispatcher Run.AnySignal r r' →
          r'.results = r.results ++ [result] → result.nodeId = node.id →
            r'.traversal = r.behind.complete node.id
              (if !r'.isOver && defaults.firesUnlabelled node result.output then
                w.graph.fanOut node.id
              else []) := by
  refine ⟨w.nodes.filter w.isUnlabelledRouter, by simp [lint_filter_rule], List.filter_sublist,
    ?_, ?_⟩
  · intro node hnode
    rw [List.mem_filter, ← isUnlabelledRouter_iff]
    exact and_iff_right hnode
  · intro node hnode
    obtain ⟨hmem, hreported⟩ := List.mem_filter.mp hnode
    refine ⟨fanOut_ne_nil_of_isUnlabelledRouter hreported, ?_⟩
    intro defaults dispatcher starts input r r' result hsteps hstep hresults hid
    obtain ⟨visited, hvisited, htraversal⟩ :=
      Run.traversal_of_recorded hstep hsteps.visits.2 hresults
    obtain rfl : node = visited := by
      rw [hid, node?_id hmem] at hvisited
      exact Option.some.inj hvisited
    rw [htraversal, successors_of_isUnlabelledRouter hreported]
    cases r'.isOver <;> rfl

/-- A document with a disabled choice and one connection behind it, without a label. -/
def skippedChoiceDocument : Json :=
  .object [
    ("connections", .array [.object [("source", .string "check"), ("target", .string "a")]]),
    ("name", .string "w"),
    ("nodes", .array [
      .object [("disabled", .bool true), ("id", .string "check"), ("type", .string "twiddle.if")],
      .object [("id", .string "a"), ("type", .string "twiddle.noOp")]])]

/-- The choice of the document. -/
def skippedCheck : Node := { id := "check", typeTag := "twiddle.if", disabled := true }

/-- The work behind the choice. -/
def workAfterCheck : Node := { id := "a", typeTag := "twiddle.noOp" }

/-- The workflow of the document. -/
def skippedChoice : Workflow :=
  ofSound
    { name := "w", nodes := [skippedCheck, workAfterCheck]
      connections := [{ source := "check", target := "a" }] }
    ((Definition.violations_eq_nil_iff _).2 (by decide))

/-- One connection leaves the choice. -/
theorem leaving_skippedChoice :
    leaving skippedChoice.connections "check" = [{ source := "check", target := "a" }] := by
  decide

/-- The lint reports the choice. -/
theorem isUnlabelledRouter_skippedCheck :
    skippedChoice.isUnlabelledRouter skippedCheck = true := by
  refine isUnlabelledRouter_iff.mpr ⟨by decide, ?_, ?_⟩
  · simp [skippedCheck, leaving_skippedChoice]
  · simp [skippedCheck, leaving_skippedChoice]

/-- The work is the only target of the choice. -/
theorem fanOut_skippedChoice : skippedChoice.graph.fanOut "check" = ["a"] := by
  rw [fanOut_eq, leaving_skippedChoice]
  rfl

/-- A run of the document that has begun. -/
def begunSkippedChoice (input : Json) : Run :=
  { (Run.initial ["check"] input).announce (.runStarted "w") with phase := .between }

/-- A run of the document that has passed over the choice. -/
def passedSkippedChoice (input : Json) : Run :=
  { begunSkippedChoice input with traversal := ⟨[], ∅⟩ }.record (.skipped skippedCheck)
    (.nodeSkipped "check") ["a"]

/-- A run of the document takes the choice first. -/
theorem next_begunSkippedChoice (input : Json) :
    (begunSkippedChoice input).traversal.next = (some "check", ⟨[], ∅⟩) :=
  Traversal.next_cons_of_not_mem (by simp)

/-- A visit of the choice passes over it. -/
theorem visit_skippedChoice (input : Json) :
    { begunSkippedChoice input with traversal := ⟨[], ∅⟩ }.visit ⟨skippedChoice, {}⟩ "check" =
      passedSkippedChoice input := by
  have hnode : skippedChoice.node? "check" = some skippedCheck :=
    (node?_eq_some_iff skippedChoice _ _).2 ⟨List.mem_cons_self, rfl⟩
  have hdisabled : skippedCheck.disabled = true := rfl
  have htargets : skippedChoice.graph.fanOut skippedCheck.id = ["a"] := fanOut_skippedChoice
  simp only [Run.visit, hnode, hdisabled, if_true, htargets]
  rfl

/-- The choice is reported, and a run that passes over it lets the work wait. -/
theorem lint_unlabelledRouter_exact_skippedChoice :
    Issue.unlabelledRouter "check" ∈ skippedChoice.lint ∧
      ∀ input, (passedSkippedChoice input).traversal =
        (begunSkippedChoice input).behind.complete "check" ["a"] := by
  obtain ⟨routers, _, _, hrouters, hfires⟩ := lint_unlabelledRouter_exact skippedChoice
  have hcheck : skippedCheck ∈ routers :=
    (hrouters skippedCheck List.mem_cons_self).mpr
      (isUnlabelledRouter_iff.mp isUnlabelledRouter_skippedCheck)
  refine ⟨unlabelledRouter_mem_lint List.mem_cons_self isUnlabelledRouter_skippedCheck,
    fun input => ?_⟩
  have hbegin : Run.Step ⟨skippedChoice, {}⟩ (fun _ _ _ => True) Run.AnySignal
      (.initial ["check"] input) (begunSkippedChoice input) := .begin rfl
  have hpass : Run.Step ⟨skippedChoice, {}⟩ (fun _ _ _ => True) Run.AnySignal
      (begunSkippedChoice input) (passedSkippedChoice input) := by
    rw [← visit_skippedChoice]
    exact .reach rfl rfl rfl (next_begunSkippedChoice input)
  have hwaits := (hfires skippedCheck hcheck).2 {} _ ["check"] input _ _ _ (.single hbegin)
    hpass rfl rfl
  have htargets : skippedChoice.graph.fanOut skippedCheck.id = ["a"] := fanOut_skippedChoice
  rwa [htargets] at hwaits

/-- The lint says of the choice that its connection will not fire, and the run goes on
with the work behind it. -/
theorem skippedChoiceDocument_fires :
    ofDocument skippedChoiceDocument = .ok skippedChoice ∧
      Issue.unlabelledRouter "check" ∈ skippedChoice.lint ∧
      skippedChoice.startNodes none = .ok ["check"] ∧
      ∀ input, ((Run.initial ["check"] input).wake ⟨skippedChoice, {}⟩).snapshot =
        ⟨.running, some "a", input, [.skipped skippedCheck]⟩ := by
  have hread : Document.read skippedChoiceDocument = .ok skippedChoice.definition := by rfl
  refine ⟨?_, unlabelledRouter_mem_lint List.mem_cons_self isUnlabelledRouter_skippedCheck, ?_,
    fun input => ?_⟩
  · simp only [ofDocument, hread]
    exact ofDefinition_eq_ok _
  · simp [skippedChoice, skippedCheck, workAfterCheck, startNodes, ofSound, Graph.ofParts,
      Graph.startsOf]
  · let c : RunContext := ⟨skippedChoice, {}⟩
    have hwork : skippedChoice.node? "a" = some workAfterCheck :=
      (node?_eq_some_iff skippedChoice _ _).2 ⟨by simp [skippedChoice, nodes, ofSound], rfl⟩
    have hnext : (passedSkippedChoice input).traversal.next =
        (some "a", ⟨[], (∅ : Std.HashSet String).insert "check"⟩) :=
      Traversal.next_cons_of_not_mem (by simp [NodeResult.skipped, skippedCheck])
    have hpass : (begunSkippedChoice input).turn c = passedSkippedChoice input := by
      rw [← visit_skippedChoice]
      simp only [Run.turn, next_begunSkippedChoice]
      rfl
    have hstart : (passedSkippedChoice input).turn c =
        { { passedSkippedChoice input with
            traversal := ⟨[], (∅ : Std.HashSet String).insert "check"⟩ }.announce
              (.nodeStarted "a" "twiddle.noOp") with phase := .dispatching workAfterCheck } := by
      simp only [Run.turn, hnext, Run.visit, c, hwork]
      rfl
    have hwake : (Run.initial ["check"] input).wake c = (begunSkippedChoice input).turns c 3 := rfl
    have hsuspended : ((passedSkippedChoice input).turn c).phase ≠ .between := by
      rw [hstart]
      simp
    rw [hwake, Run.turns_succ c 2 rfl, hpass, Run.turns_succ c 1 rfl,
      Run.turns_of_suspended c 1 hsuspended, hstart]
    rfl

end Workflow

end FlowGraph
