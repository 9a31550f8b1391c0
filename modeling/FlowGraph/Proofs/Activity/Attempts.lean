import FlowGraph.Activity.Dispatch
import Mathlib.Data.List.Basic

/-!
# The attempts of a dispatch

A dispatch is a row of calls.  A call answers in time, or its own limit passes first,
or the deadline cuts it off.  After a call the dispatch ends or waits and calls again.
This module says once what a call can come to and how a row of calls goes on and
ends; every other statement about dispatches is read off the row.

Main results:

- Theorem `Dispatch.Job.attempt_cases`: what an attempt comes to, and when it ends.
- Inductive `Dispatch.Job.Ending`: the ways in which a dispatch ends after a call.
- Theorem `Dispatch.Job.row_attemptFrom`: the attempts of a dispatch are such a row.
-/

namespace FlowGraph.Dispatch.Job

variable (job : Job)

/-! ## Calls and the clock -/

/-- The milliseconds until a call answers. -/
def needed (call : Call) : Nat := (job.handler call.input).afterMs

/-- The milliseconds that every call may take, unless calls are not limited. -/
def ownLimit : Option Nat :=
  if job.node.options.startToCloseTimeout = 0 then none
  else some (job.node.options.startToCloseTimeout.toNat * millisPerSecond)

/-- A call answers within its own limit and until the deadline. -/
structure InTime (call : Call) : Prop where
  withinLimit : ∀ limit, job.ownLimit = some limit → job.needed call ≤ limit
  untilDeadline : ∀ deadline, job.deadline = some deadline →
    call.atMs + job.needed call ≤ deadline

/-- A call gives a result in time. -/
structure Answers (call : Call) (result : Except HandlerFault Json) : Prop where
  inTime : job.InTime call
  answer : (job.handler call.input).result = result

/-- The own limit of a call passes before the call answers, and strictly before the
deadline. -/
def Overdue (call : Call) : Prop :=
  ∃ limit, job.ownLimit = some limit ∧ limit < job.needed call ∧
    ∀ deadline, job.deadline = some deadline → call.atMs + limit < deadline

/-- The deadline passes before a call answers, and not after its own limit. -/
def CutOff (call : Call) : Prop :=
  ∃ deadline, job.deadline = some deadline ∧ deadline < call.atMs + job.needed call ∧
    ∀ limit, job.ownLimit = some limit → deadline ≤ call.atMs + limit

/-- The milliseconds that a call begun now may take: its own limit or the time left to
the deadline, whichever is less. -/
def allowance (now : Nat) : Option Nat :=
  Option.merge min job.ownLimit (job.deadline.map fun deadline => deadline - now)

/-- The instant at which a call ends: when it answers, or when its time is up before. -/
def callEnd (call : Call) : Nat :=
  match job.allowance call.atMs with
  | some allowed => call.atMs + min (job.needed call) allowed
  | none => call.atMs + job.needed call

/-- The deadline has not passed at an instant. -/
def IsOpen (now : Nat) : Prop := ∀ deadline, job.deadline = some deadline → now < deadline

/-- The own limit of a call and the time left to the deadline bound it together. -/
theorem budget_eq_allowance (now : Nat) : job.budget now = job.allowance now := by
  unfold budget allowance ownLimit
  dsimp only
  split_ifs <;> cases job.deadline <;> rfl

/-- An attempt of a limited time ends with the answer or when its time is up. -/
theorem attempt_of_budget {call : Call} {allowed : Nat}
    (hbudget : job.budget call.atMs = some allowed) :
    job.attempt call.input call.atMs =
      if job.needed call ≤ allowed then
        (.ofResult (job.handler call.input).result, call.atMs + job.needed call)
      else (.timedOut, call.atMs + allowed) := by
  unfold attempt needed
  simp only [hbudget]

/-- An attempt of any time ends with the answer. -/
theorem attempt_of_no_budget {call : Call} (hbudget : job.budget call.atMs = none) :
    job.attempt call.input call.atMs =
      (.ofResult (job.handler call.input).result, call.atMs + job.needed call) := by
  unfold attempt needed
  simp only [hbudget]

theorem callEnd_of_budget {call : Call} {allowed : Nat}
    (hbudget : job.budget call.atMs = some allowed) :
    job.callEnd call = call.atMs + min (job.needed call) allowed := by
  rw [callEnd, ← budget_eq_allowance, hbudget]

theorem callEnd_of_no_budget {call : Call} (hbudget : job.budget call.atMs = none) :
    job.callEnd call = call.atMs + job.needed call := by
  rw [callEnd, ← budget_eq_allowance, hbudget]

/-- The time of a call is its own limit or what is left to the deadline, whichever is
less. -/
theorem budget_cases (now : Nat) :
    (job.budget now = none ∧ job.ownLimit = none ∧ job.deadline = none) ∨
      (∃ limit, job.budget now = some limit ∧ job.ownLimit = some limit ∧
        ∀ deadline, job.deadline = some deadline → limit ≤ deadline - now) ∨
      ∃ deadline, job.budget now = some (deadline - now) ∧ job.deadline = some deadline ∧
        ∀ limit, job.ownLimit = some limit → deadline - now ≤ limit := by
  have hbudget : job.budget now =
      Option.merge min job.ownLimit (job.deadline.map fun deadline => deadline - now) :=
    job.budget_eq_allowance now
  cases hlimit : job.ownLimit with
  | none =>
      cases hdeadline : job.deadline with
      | none => exact .inl ⟨by rw [hbudget, hlimit, hdeadline]; rfl, rfl, rfl⟩
      | some deadline =>
          exact .inr (.inr ⟨deadline, by rw [hbudget, hlimit, hdeadline]; rfl, rfl, by simp⟩)
  | some limit =>
      cases hdeadline : job.deadline with
      | none => exact .inr (.inl ⟨limit, by rw [hbudget, hlimit, hdeadline]; rfl, rfl, by simp⟩)
      | some deadline =>
          have hmin : job.budget now = some (min limit (deadline - now)) := by
            rw [hbudget, hlimit, hdeadline]
            rfl
          rcases Nat.le_total limit (deadline - now) with hle | hle
          · rw [Nat.min_eq_left hle] at hmin
            exact .inr (.inl ⟨limit, hmin, rfl, by simpa using hle⟩)
          · rw [Nat.min_eq_right hle] at hmin
            exact .inr (.inr ⟨deadline, hmin, rfl, by simpa using hle⟩)

variable {job}

/-- What an attempt comes to; it ends when its call ends. -/
theorem attempt_cases (call : Call) (hopen : job.IsOpen call.atMs) :
    (job.InTime call ∧ job.attempt call.input call.atMs =
        (.ofResult (job.handler call.input).result, job.callEnd call)) ∨
      (job.Overdue call ∧ job.attempt call.input call.atMs = (.timedOut, job.callEnd call)) ∨
      (job.CutOff call ∧ job.attempt call.input call.atMs = (.timedOut, job.callEnd call)) := by
  rcases job.budget_cases call.atMs with
    ⟨hbudget, hlimit, hdeadline⟩ | ⟨limit, hbudget, hlimit, hleft⟩ |
      ⟨deadline, hbudget, hdeadline, hlimit⟩
  · rw [attempt_of_no_budget job hbudget, callEnd_of_no_budget job hbudget]
    exact .inl ⟨⟨by simp [hlimit], by simp [hdeadline]⟩, rfl⟩
  · rw [attempt_of_budget job hbudget, callEnd_of_budget job hbudget]
    split
    next hle =>
      refine .inl ⟨⟨by simpa [hlimit] using hle, fun deadline hdeadline => ?_⟩, ?_⟩
      · have := hleft deadline hdeadline
        have := hopen deadline hdeadline
        omega
      · rw [Nat.min_eq_left hle]
    next hlt =>
      rw [Nat.min_eq_right (Nat.le_of_not_le hlt)]
      by_cases hfirst : ∀ deadline, job.deadline = some deadline → call.atMs + limit < deadline
      · exact .inr (.inl ⟨⟨limit, hlimit, Nat.lt_of_not_le hlt, hfirst⟩, rfl⟩)
      · push Not at hfirst
        obtain ⟨deadline, hdeadline, hle⟩ := hfirst
        have := hleft deadline hdeadline
        refine .inr (.inr ⟨⟨deadline, hdeadline, by omega, ?_⟩, rfl⟩)
        simpa [hlimit] using hle
  · have hlt := hopen deadline hdeadline
    rw [attempt_of_budget job hbudget, callEnd_of_budget job hbudget]
    split
    next hle =>
      refine .inl ⟨⟨fun limit hown => ?_, by simp [hdeadline]; omega⟩, ?_⟩
      · exact Nat.le_trans hle (hlimit limit hown)
      · rw [Nat.min_eq_left hle]
    next hgt =>
      rw [Nat.min_eq_right (Nat.le_of_not_le hgt)]
      refine .inr (.inr ⟨⟨deadline, hdeadline, by omega, fun limit hown => ?_⟩, rfl⟩)
      have := hlimit limit hown
      omega

/-! ## When calls end -/

/-- A call ends within its own limit. -/
theorem callEnd_le_limit (call : Call) {limit : Nat} (hlimit : job.ownLimit = some limit) :
    job.callEnd call ≤ call.atMs + limit := by
  rcases job.budget_cases call.atMs with
    ⟨hbudget, hnone, -⟩ | ⟨own, hbudget, hown, -⟩ | ⟨deadline, hbudget, hdeadline, hle⟩
  · simp [hlimit] at hnone
  · obtain rfl := Option.some.inj (hlimit.symm.trans hown)
    rw [callEnd_of_budget job hbudget]
    omega
  · have := hle limit hlimit
    rw [callEnd_of_budget job hbudget]
    omega

/-- A call that the deadline cuts off ends with it. -/
theorem CutOff.callEnd_eq {call : Call} (hcut : job.CutOff call) (hopen : job.IsOpen call.atMs) :
    job.deadline = some (job.callEnd call) := by
  obtain ⟨deadline, hdeadline, hlate, hlimit⟩ := hcut
  have hlt := hopen deadline hdeadline
  refine hdeadline.trans (congrArg some ?_)
  rcases job.budget_cases call.atMs with
    ⟨-, -, hnone⟩ | ⟨limit, hbudget, hown, hleft⟩ | ⟨other, hbudget, hother, -⟩
  · simp [hdeadline] at hnone
  · have := hleft deadline hdeadline
    have := hlimit limit hown
    rw [callEnd_of_budget job hbudget]
    omega
  · obtain rfl := Option.some.inj (hdeadline.symm.trans hother)
    rw [callEnd_of_budget job hbudget]
    omega

/-- A call whose own limit passes first ends before the deadline. -/
theorem Overdue.isOpen_callEnd {call : Call} (hover : job.Overdue call) :
    job.IsOpen (job.callEnd call) := by
  obtain ⟨limit, hlimit, -, hfirst⟩ := hover
  intro deadline hdeadline
  exact Nat.lt_of_le_of_lt (callEnd_le_limit call hlimit) (hfirst deadline hdeadline)

/-! ## Rows of calls -/

variable (job)

/-- Another attempt may succeed: the call failed, or its own limit passed. -/
def Retryable (call : Call) : Prop :=
  (∃ text, job.Answers call (.error (.failed text))) ∨ job.Overdue call

/-- The nanoseconds to wait after a call. -/
def waitAfter (call : Call) : Nat := job.node.options.retry.backoff call.attempt

/-- The instant at which the wait after a call ends. -/
def wakeAfter (call : Call) : Nat := job.callEnd call + sleepMillis (job.waitAfter call)

/-- The call after a call. -/
def nextCall (call : Call) : Call := ⟨job.input (call.attempt + 1), job.wakeAfter call⟩

/-- The ways in which a dispatch ends after a call, with its reply and its instant. -/
inductive Ending (call : Call) : Reply → Nat → Prop where
  | succeeded {output : Json} : job.Answers call (.ok output) →
      Ending call (.ok ⟨output, call.attempt⟩) (job.callEnd call)
  | rejected {fault : ParameterFault} : job.Answers call (.error (.invalidParameters fault)) →
      Ending call (.error ⟨job.node.id, .invalidParameters fault, call.attempt⟩)
        (job.callEnd call)
  | failed {text : String} : call.attempt = job.node.options.retry.attempts →
      job.Answers call (.error (.failed text)) →
      Ending call (.error ⟨job.node.id, .failed text, call.attempt⟩) (job.callEnd call)
  | overdue : call.attempt = job.node.options.retry.attempts → job.Overdue call →
      Ending call
        (.error ⟨job.node.id, .startToClose job.node.options.startToCloseTimeout.toNat,
          call.attempt⟩)
        (job.callEnd call)
  | cutOff : job.CutOff call →
      Ending call (.error ⟨job.node.id, job.expired, call.attempt⟩) (job.callEnd call)
  /-- The wait, rounded up to a whole millisecond, reaches the deadline. -/
  | waited {deadline : Nat} : call.attempt < job.node.options.retry.attempts →
      job.Retryable call → job.deadline = some deadline →
      deadline * nanosPerMilli <
        job.callEnd call * nanosPerMilli + job.waitAfter call + nanosPerMilli →
      Ending call (.error ⟨job.node.id, job.expired, call.attempt⟩) deadline

/-- The next call has the next number. -/
@[simp]
theorem attempt_nextCall (call : Call) : (job.nextCall call).attempt = call.attempt + 1 := rfl

/-- A call is given what the dispatch gives to the attempt of its number. -/
def Gives (call : Call) : Prop := call.input = job.input call.attempt

/-- A dispatch makes a row of calls, beginning with the given one: each begins before
the deadline, all but the last are tried again, and the dispatch ends after the last. -/
inductive Row : Call → DispatchRecord → Prop where
  | last {call : Call} {reply : Reply} {endMs : Nat} : job.Gives call →
      job.IsOpen call.atMs → job.Ending call reply endMs → Row call ⟨some reply, endMs, [call]⟩
  | next {call : Call} {record : DispatchRecord} : job.Gives call →
      job.IsOpen call.atMs → call.attempt < job.node.options.retry.attempts →
      job.Retryable call → Row (job.nextCall call) record →
      Row call { record with calls := call :: record.calls }

variable {job}

theorem isPast_eq_false_iff {now : Nat} : job.isPast now = false ↔ job.IsOpen now := by
  cases hdeadline : job.deadline <;> simp [isPast, IsOpen, hdeadline]

theorem isPast_of_le {now deadline : Nat} (hdeadline : job.deadline = some deadline)
    (hle : deadline ≤ now) : job.isPast now = true := by
  simp [isPast, hdeadline, hle]

theorem not_isOpen_iff {now : Nat} :
    ¬ job.IsOpen now ↔ ∃ deadline, job.deadline = some deadline ∧ deadline ≤ now := by
  simp [IsOpen]

/-- After a call that is tried again, the dispatch waits until the deadline or until
the next call. -/
theorem resume_cases (call : Call) :
    (∃ deadline, job.deadline = some deadline ∧
        deadline * nanosPerMilli ≤ job.callEnd call * nanosPerMilli + job.waitAfter call ∧
        job.resume call.attempt (job.callEnd call) = .error deadline) ∨
      (job.resume call.attempt (job.callEnd call) = .ok (job.wakeAfter call) ∧
        ∀ deadline, job.deadline = some deadline → job.wakeAfter call ≤ deadline) := by
  unfold resume wakeAfter
  rw [← waitAfter]
  cases job.deadline with
  | none => exact .inr ⟨rfl, by simp⟩
  | some deadline =>
      dsimp only
      split
      next hreach => exact .inl ⟨deadline, rfl, hreach, rfl⟩
      next hshort =>
        refine .inr ⟨rfl, ?_⟩
        intro other hother
        obtain rfl := Option.some.inj hother
        unfold sleepMillis nanosPerMilli at *
        omega

/-- A wait that ends at the deadline or later reaches it, rounded up. -/
theorem waits_of_wakeAfter {call : Call} {deadline : Nat} (hle : deadline ≤ job.wakeAfter call) :
    deadline * nanosPerMilli <
      job.callEnd call * nanosPerMilli + job.waitAfter call + nanosPerMilli := by
  unfold wakeAfter sleepMillis nanosPerMilli at *
  omega

/-! ## Attempts are rows -/

/-- What a dispatch does after an attempt, if it goes on as given after a failed one. -/
def conclude (job : Job) (number : Nat) (again : DispatchFault → Nat → DispatchRecord) :
    Attempt × Nat → DispatchRecord
  | (.succeeded output, done) => ⟨some (.ok ⟨output, number⟩), done, []⟩
  | (.rejected fault, done) => job.fail (.invalidParameters fault) number done
  | (.failed text, done) => again (.failed text) done
  | (.timedOut, done) =>
    if job.isPast done then job.fail job.expired number done
    else again (.startToClose job.node.options.startToCloseTimeout.toNat) done

/-- How a dispatch goes on after a failed attempt, when some attempts are left. -/
def goOn (job : Job) (number : Nat) : Nat → DispatchFault → Nat → DispatchRecord
  | 0, fault, done => job.fail fault number done
  | remaining + 1, _, done =>
    match job.resume number done with
    | .error deadline => job.fail job.expired number deadline
    | .ok next => job.attemptFrom remaining (number + 1) next

/-- An attempt at the deadline or later is not made. -/
theorem attemptFrom_of_isPast (remaining number : Nat) {now : Nat} (hpast : job.isPast now = true) :
    job.attemptFrom remaining number now = job.fail job.expired (number - 1) now := by
  unfold attemptFrom
  rw [if_pos hpast]

/-- An attempt before the deadline is made and recorded. -/
theorem attemptFrom_of_isOpen (remaining number : Nat) {now : Nat} (hopen : job.IsOpen now) :
    job.attemptFrom remaining number now =
      let rest := job.conclude number (job.goOn number remaining)
        (job.attempt (job.input number) now)
      { rest with calls := ⟨job.input number, now⟩ :: rest.calls } := by
  unfold attemptFrom
  rw [if_neg (by simp [isPast_eq_false_iff.mpr hopen])]
  dsimp only
  rcases job.attempt (job.input number) now with ⟨outcome, done⟩
  cases remaining <;> cases outcome <;> rfl

/-- A call begins a row if it does when it is tried again. -/
theorem row_conclude {call : Call} (hgiven : job.Gives call)
    (hopen : job.IsOpen call.atMs) {again : DispatchFault → Nat → DispatchRecord}
    (hfailed : ∀ text, job.Answers call (.error (.failed text)) →
      let rest := again (.failed text) (job.callEnd call)
      job.Row call { rest with calls := call :: rest.calls })
    (hover : job.Overdue call →
      let rest := again (.startToClose job.node.options.startToCloseTimeout.toNat)
        (job.callEnd call)
      job.Row call { rest with calls := call :: rest.calls }) :
    let rest := job.conclude call.attempt again (job.attempt call.input call.atMs)
    job.Row call { rest with calls := call :: rest.calls } := by
  rcases attempt_cases call hopen with ⟨htime, heq⟩ | ⟨hlimit, heq⟩ | ⟨hcut, heq⟩
  · rw [heq]
    cases hresult : (job.handler call.input).result with
    | ok output => exact .last hgiven hopen (.succeeded ⟨htime, hresult⟩)
    | error fault =>
        cases fault with
        | invalidParameters fault => exact .last hgiven hopen (.rejected ⟨htime, hresult⟩)
        | failed text => exact hfailed text ⟨htime, hresult⟩
  · rw [heq, conclude, isPast_eq_false_iff.mpr hlimit.isOpen_callEnd]
    exact hover hlimit
  · rw [heq, conclude, isPast_of_le (hcut.callEnd_eq hopen) (Nat.le_refl _)]
    exact .last hgiven hopen (.cutOff hcut)

/-- A call that is tried again begins a row if the next call does. -/
theorem row_goOn {call : Call} {remaining : Nat} (hgiven : job.Gives call)
    (hopen : job.IsOpen call.atMs) (hleft : call.attempt < job.node.options.retry.attempts)
    (hretry : job.Retryable call)
    (hnext : job.IsOpen (job.wakeAfter call) →
      job.Row (job.nextCall call)
        (job.attemptFrom remaining (call.attempt + 1) (job.wakeAfter call)))
    (fault : DispatchFault) :
    let rest := job.goOn call.attempt (remaining + 1) fault (job.callEnd call)
    job.Row call { rest with calls := call :: rest.calls } := by
  rw [goOn]
  rcases @resume_cases job call with ⟨deadline, hdeadline, hreach, hresume⟩ | ⟨hresume, hwake⟩
  · rw [hresume]
    have hwaits : deadline * nanosPerMilli <
        job.callEnd call * nanosPerMilli + job.waitAfter call + nanosPerMilli :=
      Nat.lt_of_le_of_lt hreach (Nat.lt_add_of_pos_right (by decide))
    exact .last hgiven hopen (.waited hleft hretry hdeadline hwaits)
  · rw [hresume]
    by_cases hfirst : job.IsOpen (job.wakeAfter call)
    · exact .next hgiven hopen hleft hretry (hnext hfirst)
    · -- the wait, rounded up, ends exactly at the deadline
      obtain ⟨deadline, hdeadline, hle⟩ := not_isOpen_iff.mp hfirst
      have hends : job.wakeAfter call = deadline := Nat.le_antisymm (hwake _ hdeadline) hle
      dsimp only
      rw [attemptFrom_of_isPast _ _ (isPast_of_le hdeadline hle), Nat.add_sub_cancel, hends]
      exact .last hgiven hopen (.waited hleft hretry hdeadline (waits_of_wakeAfter hle))

/-- The attempts of a dispatch are a row of calls. -/
theorem row_attemptFrom (remaining : Nat) {call : Call} (hgiven : job.Gives call)
    (hopen : job.IsOpen call.atMs)
    (hleft : call.attempt + remaining = job.node.options.retry.attempts) :
    job.Row call (job.attemptFrom remaining call.attempt call.atMs) := by
  induction remaining generalizing call with
  | zero =>
      rw [attemptFrom_of_isOpen _ _ hopen, ← hgiven]
      exact row_conclude hgiven hopen
        (fun text hanswers => .last hgiven hopen (.failed hleft hanswers))
        (fun hover => .last hgiven hopen (.overdue hleft hover))
  | succ remaining ih =>
      have hnext (hwake : job.IsOpen (job.wakeAfter call)) : job.Row (job.nextCall call)
          (job.attemptFrom remaining (call.attempt + 1) (job.wakeAfter call)) :=
        have hleft' : (job.nextCall call).attempt + remaining =
            job.node.options.retry.attempts := by
          rw [attempt_nextCall]
          omega
        ih rfl hwake hleft'
      rw [attemptFrom_of_isOpen _ _ hopen, ← hgiven]
      exact row_conclude hgiven hopen
        (fun text hanswers => row_goOn hgiven hopen (by omega) (.inl ⟨text, hanswers⟩) hnext _)
        (fun hover => row_goOn hgiven hopen (by omega) (.inr hover) hnext _)

/-! ## What a row holds -/

section Row

variable {call : Call} {record : DispatchRecord} (hrow : job.Row call record)

include hrow

/-- A row begins with its first call. -/
theorem Row.calls_eq_cons : ∃ rest, record.calls = call :: rest := by
  cases hrow with
  | last => exact ⟨[], rfl⟩
  | next => exact ⟨_, rfl⟩

/-- The calls of a row are numbered one after another. -/
theorem Row.numbered :
    record.calls.map Call.attempt = List.range' call.attempt record.calls.length := by
  induction hrow with
  | last => rfl
  | next _ _ _ _ _ ih =>
      rw [List.map_cons, ih, List.length_cons, List.range'_succ]
      rfl

/-- Every call of a row is given what the dispatch gives to its number. -/
theorem Row.gives : ∀ c ∈ record.calls, job.Gives c := by
  induction hrow with
  | last hgiven => simpa using hgiven
  | next hgiven _ _ _ _ ih => exact List.forall_mem_cons.mpr ⟨hgiven, ih⟩

/-- Every call of a row but the last is tried again. -/
theorem Row.retryable : ∀ c ∈ record.calls.dropLast, job.Retryable c := by
  induction hrow with
  | last => simp
  | next _ _ _ hretry hrow ih =>
      obtain ⟨rest, hrest⟩ := hrow.calls_eq_cons
      rw [hrest] at ih
      rw [hrest, List.dropLast_cons_cons]
      exact List.forall_mem_cons.mpr ⟨hretry, ih⟩

/-- Between two calls of a row lies the wait after the first. -/
theorem Row.isChain : record.calls.IsChain fun c d => d = job.nextCall c := by
  induction hrow with
  | last => exact .singleton _
  | next _ _ _ _ hrow ih =>
      obtain ⟨rest, hrest⟩ := hrow.calls_eq_cons
      rw [hrest] at ih
      rw [hrest]
      exact .cons_cons rfl ih

/-- A row makes no more calls than the policy allows. -/
theorem Row.length_le (hallowed : call.attempt ≤ job.node.options.retry.attempts) :
    call.attempt + record.calls.length ≤ job.node.options.retry.attempts + 1 := by
  induction hrow with
  | last => simpa using hallowed
  | next _ _ hleft _ _ ih =>
      have := ih hleft
      simp only [attempt_nextCall, List.length_cons] at *
      omega

/-- A dispatch ends after the last call of its row, which carries the number of the calls
made. -/
theorem Row.ending : ∃ last reply, record.calls.getLast? = some last ∧
    last.attempt + 1 = call.attempt + record.calls.length ∧ record.reply = some reply ∧
    job.Ending last reply record.endMs := by
  induction hrow with
  | last _ _ hend => exact ⟨_, _, rfl, rfl, rfl, hend⟩
  | next _ _ _ _ hrow ih =>
      obtain ⟨last, reply, hlast, hnumber, hreply, hend⟩ := ih
      refine ⟨last, reply, ?_, ?_, hreply, hend⟩
      · obtain ⟨rest, hrest⟩ := hrow.calls_eq_cons
        simpa [hrest] using hlast
      · simp only [attempt_nextCall, List.length_cons] at *
        omega

end Row

end FlowGraph.Dispatch.Job
