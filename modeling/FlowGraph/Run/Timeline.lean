import FlowGraph.Run.Basic

/-!
# Runs in time

A timed run dispatches its nodes through a registry, under a clock, and takes signals at given
instants.  Time only passes while the run is suspended.  Before the run has begun, at the instant
zero, signals are taken without waking it.

Current gaps:

- What a dispatch comes to is settled when it begins, so that its later calls are listed before
  their instants.
- A step at an instant at which the run itself acts is taken after it; what a scheduler of threads
  would do there is left open.
-/

namespace FlowGraph

/-- What happens at an instant: signals taken together, and then the run is looked at. -/
structure TimelineStep where
  atMs : Nat
  signals : List Signal

/-- A run and the dispatch in flight. -/
structure TimedRun where
  run : Run
  nowMs : Nat
  /-- The dispatch in flight, with its answer and the instant it ends. -/
  inFlight : Option DispatchRecord
  /-- Every event with its instant. -/
  log : List (Nat × Event)
  calls : List Call
  /-- A dispatch asked for an instant past the end of the clock, which stops everything. -/
  aborted : Bool

namespace TimedRun

/-- A run at the instant zero, not begun. -/
def ofRun (run : Run) : TimedRun := ⟨run, 0, none, [], [], false⟩

/-- Replace the run by a later state of it: date its new events and begin the dispatch it asks
for. -/
def update (registry : Registry) (clock : Clock) (t : TimedRun) (run : Run) : TimedRun :=
  let fresh := (run.events.drop t.run.events.length).map fun e => (t.nowMs, e)
  let t := { t with run := run, log := t.log ++ fresh }
  match run.phase, t.inFlight with
  | .dispatching node, none =>
    let record := registry.dispatch clock node run.payload t.nowMs
    { t with
      inFlight := some record
      calls := t.calls ++ record.calls
      aborted := record.reply.isNone }
  | _, _ => t

/-- Let dispatches end until an instant, at most `fuel` of them. -/
def passUntil (c : RunContext) (registry : Registry) (clock : Clock) (instant fuel : Nat)
    (t : TimedRun) : TimedRun :=
  match fuel with
  | 0 => t
  | fuel + 1 =>
    match t.inFlight with
    | none => t
    | some record =>
      match record.reply with
      | none => t
      | some reply =>
        if record.endMs ≤ instant then
          let t := { t with nowMs := record.endMs, inFlight := none }
          passUntil c registry clock instant fuel (t.update registry clock (t.run.answer c reply))
        else t

/-- Let time pass until an instant.  A run dispatches every node at most once. -/
def advanceTo (c : RunContext) (registry : Registry) (clock : Clock) (instant : Nat)
    (t : TimedRun) : TimedRun :=
  { t.passUntil c registry clock instant (c.workflow.nodes.length + 1) with nowMs := instant }

/-- Take signals and let the run go on as far as it can without time passing, unless it has not
begun. -/
def take (c : RunContext) (registry : Registry) (clock : Clock) (signals : List Signal)
    (t : TimedRun) : TimedRun :=
  let signalled := { t with run := signals.foldl Run.signal t.run }
  match t.run.phase with
  | .pending => signalled
  | _ => (signalled.update registry clock (signalled.run.wake c)).advanceTo c registry clock t.nowMs

/-- Begin the run. -/
def begin (c : RunContext) (registry : Registry) (clock : Clock) (t : TimedRun) : TimedRun :=
  t.update registry clock (t.run.wake c)

/-- Play the steps of a timeline, beginning the run before the first step after zero, and collect
the run as it stands after each step. -/
def play (c : RunContext) (registry : Registry) (clock : Clock) (t : TimedRun) :
    List TimelineStep → TimedRun × List TimedRun
  | [] =>
    (match t.run.phase with
      | .pending => t.begin c registry clock
      | _ => t, [])
  | step :: rest =>
    let t :=
      match t.run.phase with
      | .pending => if step.atMs = 0 then t else t.begin c registry clock
      | _ => t
    let t := (t.advanceTo c registry clock step.atMs).take c registry clock step.signals
    let (last, looks) := play c registry clock t rest
    (last, t :: looks)

end TimedRun

/-- How a timed run went: its last state and its state after each step of the timeline. -/
structure TimedRecord where
  last : TimedRun
  looks : List TimedRun

/-- A finished run. -/
structure Outcome where
  status : RunStatus
  results : List NodeResult
  output : Json
  error : Option String

/-- The outcome of a run that is over. -/
def Run.outcome? (r : Run) : Option Outcome :=
  match r.phase with
  | .ended ending =>
    let error := match ending with
      | .failed e => some e.message
      | _ => none
    some ⟨r.phase.status, r.results, r.payload, error⟩
  | _ => none

/-- The input of a run that is given none. -/
def defaultInput : Json := .emptyObject

/-- Run a workflow through a timeline and then for some more milliseconds. -/
def Workflow.runTimed (w : Workflow) (registry : Registry) (clock : Clock)
    (defaults : RouterDefaults) (explicit : Option (List String)) (input : Option Json)
    (steps : List TimelineStep) (patienceMs : Nat) : Except StartFault TimedRecord := do
  let starts ← w.startNodes explicit
  let c : RunContext := ⟨w, defaults⟩
  let begun := TimedRun.ofRun (.initial starts (input.getD defaultInput))
  let (last, looks) := begun.play c registry clock steps
  return ⟨last.advanceTo c registry clock (last.nowMs + patienceMs), looks⟩

end FlowGraph
