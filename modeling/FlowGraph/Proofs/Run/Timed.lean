import FlowGraph.Proofs.Run.Steps

/-!
# Timed runs are runs

A timed run is moved by a registry, a clock and a timeline.  This module lists all that
can happen to it in one step, and shows that every step moves the run: what holds of
every run under any dispatcher and any signals holds of a timed run.

Main results:

- Inductive `Tick`: everything that can happen to a timed run in one step.
- Theorem `ticks_runTimed`: every state that a timed run shows, and its last one, is
  reached by such steps.
- Theorem `led_runTimed`: the states of a timed run are states of a run, each with its
  own dispatch in flight.

Current gaps:

- Timed runs are runs, but not every run is a timed one: a registry answers always
  alike, and signals come when the timeline says.
-/

namespace FlowGraph

/-- The answers that a registry gives under a clock at any instant. -/
def Registry.dispatcher (registry : Registry) (clock : Clock) : Dispatcher :=
  fun node payload reply => ∃ now, (registry.dispatch clock node payload now).reply = some reply

namespace Run

variable {c : RunContext} {dispatcher : Dispatcher} {signals : Signal → Prop}

/-- Signals change neither the phase nor the payload. -/
theorem foldl_signal (sent : List Signal) (r : Run) :
    (sent.foldl signal r).phase = r.phase ∧ (sent.foldl signal r).payload = r.payload := by
  rcases foldl_signal_eq sent r with ⟨paused, cancelled, heq⟩
  rw [heq]
  exact ⟨rfl, rfl⟩

/-- Signals that may arrive are moves. -/
theorem leads_foldl_signal {sent : List Signal} (hsent : ∀ s ∈ sent, signals s) (r : Run) :
    Leads c dispatcher signals r (sent.foldl signal r) := by
  induction sent generalizing r with
  | nil => exact .refl
  | cons s rest ih =>
      rw [List.foldl_cons]
      refine .head (.signal (hsent s List.mem_cons_self)) (ih ?_ _)
      exact fun other hother => hsent other (List.mem_cons_of_mem s hother)

/-- Waking does nothing while a dispatch is in flight. -/
theorem wake_of_dispatching {r : Run} {node : Node} (hphase : r.phase = .dispatching node) :
    r.wake c = r := by
  simp only [wake, hphase]

end Run

namespace TimedRun

open Run (Leads Move)

section

variable (c : RunContext) (registry : Registry) (clock : Clock) (signals : Signal → Prop)

/-! ## Steps of a timed run -/

/-- What can happen to a timed run in one step: time passes, signals are taken
together, the loop is woken, or the dispatch in flight ends and answers. -/
inductive Tick : TimedRun → TimedRun → Prop where
  | elapse {t : TimedRun} (nowMs : Nat) : Tick t { t with nowMs := nowMs }
  | signal {t : TimedRun} {sent : List Signal} : (∀ s ∈ sent, signals s) →
      Tick t { t with run := sent.foldl Run.signal t.run }
  | wake {t : TimedRun} : Tick t (t.update registry clock (t.run.wake c))
  | answer {t : TimedRun} {record : DispatchRecord} {reply : Reply} :
      t.inFlight = some record → record.reply = some reply →
      Tick t ({ t with nowMs := record.endMs, inFlight := none }.update registry clock
        (t.run.answer c reply))

/-- Some steps, or none. -/
abbrev Ticks : TimedRun → TimedRun → Prop := Relation.ReflTransGen (Tick c registry clock signals)

/-- The dispatches that end until an instant answer the run. -/
theorem ticks_passUntil (instant fuel : Nat) (t : TimedRun) :
    Ticks c registry clock signals t (t.passUntil c registry clock instant fuel) := by
  induction fuel generalizing t with
  | zero => exact .refl
  | succ fuel ih =>
      unfold passUntil
      cases hflight : t.inFlight with
      | none => exact .refl
      | some record =>
          cases hreply : record.reply with
          | none =>
              simp only [hreply]
              exact .refl
          | some reply =>
              simp only [hreply]
              split
              · exact .head (.answer hflight hreply) (ih _)
              · exact .refl

/-- Time passes by steps. -/
theorem ticks_advanceTo (instant : Nat) (t : TimedRun) :
    Ticks c registry clock signals t (t.advanceTo c registry clock instant) :=
  (ticks_passUntil c registry clock signals instant _ t).tail (.elapse instant)

variable {signals}

/-- Signals are taken by steps. -/
theorem ticks_take {sent : List Signal} (hsent : ∀ s ∈ sent, signals s) (t : TimedRun) :
    Ticks c registry clock signals t (t.take c registry clock sent) := by
  unfold take
  dsimp only
  split
  · exact .single (.signal hsent)
  · exact .head (.signal hsent) (.head .wake (ticks_advanceTo c registry clock signals _ _))

/-- A step of a timeline lets time pass and takes its signals, after a run that
has not begun may have begun. -/
theorem play_cons (t : TimedRun) (step : TimelineStep) (rest : List TimelineStep) :
    ∃ ready, (ready = t ∨ ready = t.begin c registry clock) ∧
      t.play c registry clock (step :: rest) =
        let taken :=
          (ready.advanceTo c registry clock step.atMs).take c registry clock step.signals
        ((taken.play c registry clock rest).1, taken :: (taken.play c registry clock rest).2) := by
  by_cases hbegins : t.run.phase = .pending ∧ step.atMs ≠ 0
  · refine ⟨t.begin c registry clock, .inr rfl, ?_⟩
    simp only [play, hbegins.1, if_neg hbegins.2]
  · refine ⟨t, .inl rfl, ?_⟩
    cases hphase : t.run.phase with
    | pending =>
        have hzero : step.atMs = 0 := by
          by_contra hne
          exact hbegins ⟨hphase, hne⟩
        simp only [play, hphase, if_pos hzero]
    | _ => simp only [play, hphase]

/-- A timeline is played by steps, up to every look and to the end. -/
theorem ticks_play {steps : List TimelineStep}
    (hsteps : ∀ step ∈ steps, ∀ s ∈ step.signals, signals s) (t : TimedRun) :
    Ticks c registry clock signals t (t.play c registry clock steps).1 ∧
      ∀ look ∈ (t.play c registry clock steps).2, Ticks c registry clock signals t look := by
  induction steps generalizing t with
  | nil =>
      refine ⟨?_, by simp [play]⟩
      unfold play
      dsimp only
      split
      · exact .single .wake
      · exact .refl
  | cons step rest ih =>
      rcases play_cons c registry clock t step rest with ⟨ready, hbegun, hplay⟩
      have hready : Ticks c registry clock signals t ready := by
        rcases hbegun with rfl | rfl
        · exact .refl
        · exact .single .wake
      have htaken := (hready.trans (ticks_advanceTo c registry clock signals step.atMs ready)).trans
        (ticks_take c registry clock (hsteps step List.mem_cons_self) _)
      have hrest := ih (fun other hother => hsteps other (List.mem_cons_of_mem step hother))
        ((ready.advanceTo c registry clock step.atMs).take c registry clock step.signals)
      rw [hplay]
      refine ⟨htaken.trans hrest.1, ?_⟩
      intro look hlook
      rcases List.mem_cons.mp hlook with rfl | hlook
      · exact htaken
      · exact htaken.trans (hrest.2 look hlook)

variable {registry clock}

/-- Every state that a timed run shows, and its last one, is reached by steps from
the run that has not begun. -/
theorem ticks_runTimed {w : Workflow} {defaults : RouterDefaults} {explicit : Option (List String)}
    {input : Option Json} {steps : List TimelineStep} {patienceMs : Nat} {record : TimedRecord}
    (hrun : w.runTimed registry clock defaults explicit input steps patienceMs = .ok record) :
    ∃ starts, w.startNodes explicit = .ok starts ∧
      ∀ t, t = record.last ∨ t ∈ record.looks →
        Ticks ⟨w, defaults⟩ registry clock (fun s => ∃ step ∈ steps, s ∈ step.signals)
          (.ofRun (.initial starts (input.getD defaultInput))) t := by
  unfold Workflow.runTimed at hrun
  cases hstarts : w.startNodes explicit with
  | error fault =>
      rw [hstarts] at hrun
      contradiction
  | ok starts =>
      rw [hstarts] at hrun
      obtain rfl := Except.ok.inj hrun
      let first := ofRun (.initial starts (input.getD defaultInput))
      have hsteps : ∀ step ∈ steps, ∀ s ∈ step.signals, ∃ step ∈ steps, s ∈ step.signals :=
        fun step hstep s hs => ⟨step, hstep, hs⟩
      rcases ticks_play ⟨w, defaults⟩ registry clock hsteps first with ⟨hlast, hlooks⟩
      refine ⟨starts, rfl, ?_⟩
      rintro t (rfl | hlook)
      · exact hlast.trans (ticks_advanceTo _ registry clock _ _ _)
      · exact hlooks t hlook

end

/-! ## Every step moves the run -/

section

variable (c : RunContext) (registry : Registry) (clock : Clock) (signals : Signal → Prop)
  (first : Run)

/-- The dispatch in flight is that of a run's node with its payload. -/
def Flies (inFlight : Option DispatchRecord) (r : Run) : Prop :=
  ∀ record, inFlight = some record →
    ∃ node now, r.phase = .dispatching node ∧ record = registry.dispatch clock node r.payload now

/-- The run has been moved from its first state, and the dispatch in flight is
its own. -/
structure Led (t : TimedRun) : Prop where
  leads : Leads c (registry.dispatcher clock) signals first t.run
  flies : Flies registry clock t.inFlight t.run

variable {c registry clock signals first}

/-- Updating the run begins the dispatch that it asks for. -/
theorem led_update {t : TimedRun} {r : Run}
    (hleads : Leads c (registry.dispatcher clock) signals first r)
    (hflies : Flies registry clock t.inFlight r) :
    Led c registry clock signals first (t.update registry clock r) := by
  unfold update
  dsimp only
  split
  · rename_i node hphase _
    refine ⟨hleads, ?_⟩
    intro record hrecord
    rw [Option.some.injEq] at hrecord
    exact ⟨node, t.nowMs, hphase, hrecord.symm⟩
  · exact ⟨hleads, hflies⟩

/-- Every step moves the run and keeps its dispatch in flight. -/
theorem led_tick {t t' : TimedRun} (htick : Tick c registry clock signals t t')
    (hled : Led c registry clock signals first t) : Led c registry clock signals first t' := by
  cases htick with
  | elapse nowMs => exact ⟨hled.leads, hled.flies⟩
  | @signal sent hsent =>
      rcases Run.foldl_signal sent t.run with ⟨hphase, hpayload⟩
      refine ⟨hled.leads.trans (Run.leads_foldl_signal hsent t.run), ?_⟩
      intro record hrecord
      rw [hphase, hpayload]
      exact hled.flies record hrecord
  | wake =>
      apply led_update (hled.leads.tail .wake)
      intro record hrecord
      rcases hled.flies record hrecord with ⟨node, now, hdispatching, heq⟩
      rw [Run.wake_of_dispatching hdispatching]
      exact ⟨node, now, hdispatching, heq⟩
  | @answer record reply hflight hreply =>
      rcases hled.flies record hflight with ⟨node, now, hphase, hrecord⟩
      have hmove : Move c (registry.dispatcher clock) signals t.run (t.run.answer c reply) :=
        .answer hphase ⟨now, hrecord ▸ hreply⟩
      apply led_update (hled.leads.tail hmove)
      intro other hother
      contradiction

/-- A run that has not begun has nothing in flight. -/
theorem led_ofRun : Led c registry clock signals first (.ofRun first) :=
  ⟨.refl, by simp [Flies, ofRun]⟩

/-- Steps move the run and keep its dispatch in flight. -/
theorem led_ticks {t : TimedRun} (hticks : Ticks c registry clock signals (.ofRun first) t) :
    Led c registry clock signals first t := by
  induction hticks with
  | refl => exact led_ofRun
  | tail _ hlast ih => exact led_tick hlast ih

/-- The states that a timed run shows, and its last one, are states of a run
with the registry's answers and the timeline's signals, and the dispatch in flight
is the run's own. -/
theorem led_runTimed {w : Workflow} {defaults : RouterDefaults} {explicit : Option (List String)}
    {input : Option Json} {steps : List TimelineStep} {patienceMs : Nat} {record : TimedRecord}
    (hrun : w.runTimed registry clock defaults explicit input steps patienceMs = .ok record) :
    ∃ starts, w.startNodes explicit = .ok starts ∧
      ∀ t, t = record.last ∨ t ∈ record.looks →
        Led ⟨w, defaults⟩ registry clock (fun s => ∃ step ∈ steps, s ∈ step.signals)
          (.initial starts (input.getD defaultInput)) t := by
  rcases ticks_runTimed hrun with ⟨starts, hstarts, hticks⟩
  exact ⟨starts, hstarts, fun t ht => led_ticks (hticks t ht)⟩

end

end TimedRun

end FlowGraph
