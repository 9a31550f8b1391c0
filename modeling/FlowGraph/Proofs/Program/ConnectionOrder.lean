import FlowGraph.Program.Temporal.Project
import FlowGraph.Proofs.Workflow.ConnectionOrder

/-!
# Programs and the order of connections

A plan lists the targets of every node, in the order of the edges that leave it, and
the files of a Temporal program are written from the plan and the texts of the
workflow alone.  So the order of the connections shows in a program only as far as it
is an order within one source.

Main results:

- Theorem `Workflow.Alike.plan_eq`: workflows that look alike have the same plan.
- Theorem `reordered_indistinguishable`: definitions whose connections differ only in the
  order of the sources start, walk and lint alike and give the same Temporal program.
-/

namespace FlowGraph

open Program

namespace Workflow.Alike

variable {w w' : Workflow}

/-- Workflows that look alike have the same plan. -/
theorem plan_eq (h : w.Alike w') (defaults : RouterDefaults) :
    Plan.ofWorkflow w defaults = Plan.ofWorkflow w' defaults := by
  have hsuccessors : Plan.successorsOf w = Plan.successorsOf w' := by
    funext defaults node
    unfold Plan.successorsOf
    rw [h.fanOut_eq, h.labels_eq, h.targetsFor_eq]
  rw [Plan.ofWorkflow, Plan.ofWorkflow, h.starts, h.nodes, hsuccessors]

theorem metadata_eq (h : w.Alike w') : Metadata.ofWorkflow w = Metadata.ofWorkflow w' := by
  rw [Metadata.ofWorkflow, Metadata.ofWorkflow, h.name, h.description]

/-- Workflows that look alike give the same Temporal program. -/
theorem temporal_eq (h : w.Alike w') (defaults : RouterDefaults) (metadata : Metadata) :
    Temporal.project w defaults metadata = Temporal.project w' defaults metadata := by
  rw [Temporal.project, Temporal.project, h.plan_eq]

end Workflow.Alike

namespace Program

/-- Of the order of connections only that within one source matters.  Two accepted
definitions with the same texts, nodes and connections, those of every source in the same
order, have the same starts, are walked alike whatever the starts, defaults and outputs,
have the same cycle found, the same findings and the same plan, and give the same Temporal
program, file by file. -/
theorem reordered_indistinguishable {d d' : Definition} {w w' : Workflow}
    (hw : Workflow.ofDefinition d = .ok w) (hw' : Workflow.ofDefinition d' = .ok w')
    (h : d.Reordered d') :
    (∀ explicit, w.startNodes explicit = w'.startNodes explicit) ∧
      (∀ (m : Type → Type) [Monad m] (starts : List String) (defaults : RouterDefaults)
        (outputOf : Node → m Json),
        Traversal.dryRun w starts defaults outputOf =
          Traversal.dryRun w' starts defaults outputOf) ∧
      w.findCycle = w'.findCycle ∧
      w.lint = w'.lint ∧
      (∀ defaults, Plan.ofWorkflow w defaults = Plan.ofWorkflow w' defaults) ∧
      Metadata.ofWorkflow w = Metadata.ofWorkflow w' ∧
      ∀ defaults metadata,
        Temporal.project w defaults metadata = Temporal.project w' defaults metadata := by
  obtain rfl := Workflow.definition_of_ofDefinition hw
  obtain rfl := Workflow.definition_of_ofDefinition hw'
  have halike := h.alike
  exact ⟨congrFun halike.startNodes_eq, fun m _ starts defaults outputOf =>
    halike.dryRun_eq defaults outputOf starts, halike.findCycle_eq, halike.lint_eq,
    halike.plan_eq, halike.metadata_eq, halike.temporal_eq⟩

/-- The loop with a choice, its connections listed source by source from the end. -/
def choiceLoopFromEnd : Definition :=
  { Workflow.choiceLoop.definition with
    connections := [
      { source := "work", target := "check" },
      { source := "check", sourceOutput := "true", target := "work" },
      { source := "check", sourceOutput := "false", target := "done" },
      { source := "start", target := "check" }] }

theorem reordered_indistinguishable_choiceLoop :
    Workflow.choiceLoop.definition.connections ≠ choiceLoopFromEnd.connections ∧
      ∃ w, Workflow.ofDefinition choiceLoopFromEnd = .ok w ∧
        Temporal.project Workflow.choiceLoop {} (.ofWorkflow Workflow.choiceLoop) =
          Temporal.project w {} (.ofWorkflow w) := by
  have hsound : choiceLoopFromEnd.violations = [] :=
    (Definition.violations_eq_nil_iff _).mpr (by decide)
  have hreordered : Workflow.choiceLoop.definition.Reordered choiceLoopFromEnd := by
    refine ⟨rfl, rfl, rfl, by decide, fun id => ?_⟩
    by_cases hstart : "start" = id
    · subst hstart
      decide
    · by_cases hcheck : "check" = id
      · subst hcheck
        decide
      · by_cases hwork : "work" = id
        · subst hwork
          decide
        · simp [Workflow.leaving, Workflow.choiceLoop, Workflow.ofSound, choiceLoopFromEnd, hstart,
            hcheck, hwork]
  have hloop : Workflow.ofDefinition Workflow.choiceLoop.definition = .ok Workflow.choiceLoop :=
    Workflow.ofDefinition_eq_ok Workflow.choiceLoop.sound
  have haccepted := Workflow.ofDefinition_eq_ok hsound
  obtain ⟨-, -, -, -, -, hmetadata, hproject⟩ :=
    reordered_indistinguishable hloop haccepted hreordered
  exact ⟨by decide, _, haccepted, by rw [hproject, hmetadata]⟩

end Program

end FlowGraph
