import FlowGraph.Proofs.Activity.Dispatch

/-!
# Dispatches follow the retry policy

A dispatch calls the handler with the numbers from one on, each time with what the node
holds and with the same payload, until a call settles it or the policy or the deadline
allows no further call.  How it ends is a function of the last call: no call comes to two
different things.

Main results:

- Theorem `Dispatch.Job.Row.follows`: a row of calls follows the retry policy.
- Theorem `Dispatch.Job.Row.given`: every call of a row is given the node and the payload.
- Theorem `Dispatch.Job.attemptFrom_congr`: attempts ask the handler only what they
  record.
- Theorem `Registry.dispatch_follows_policy`: so does every dispatch that begins.
-/

namespace FlowGraph

namespace Dispatch.Job

variable {job : Job}

/-! ## A call comes to one thing -/

/-- A call that answers gives one result. -/
theorem Answers.unique {call : Call} {first second : Except HandlerFault Json}
    (hfirst : job.Answers call first) (hsecond : job.Answers call second) : first = second :=
  hfirst.answer.symm.trans hsecond.answer

/-- A call that answers in time is not overdue. -/
theorem InTime.not_overdue {call : Call} (htime : job.InTime call) : ¬ job.Overdue call := by
  rintro ⟨limit, hlimit, hlate, -⟩
  exact absurd (htime.withinLimit limit hlimit) (Nat.not_le_of_lt hlate)

/-- A call that answers in time is not cut off. -/
theorem InTime.not_cutOff {call : Call} (htime : job.InTime call) : ¬ job.CutOff call := by
  rintro ⟨deadline, hdeadline, hlate, -⟩
  exact absurd (htime.untilDeadline deadline hdeadline) (Nat.not_le_of_lt hlate)

/-- A call whose own limit passes first is not cut off. -/
theorem Overdue.not_cutOff {call : Call} (hover : job.Overdue call) : ¬ job.CutOff call := by
  rintro ⟨deadline, hdeadline, -, hfirst⟩
  obtain ⟨limit, hlimit, -, hsecond⟩ := hover
  exact absurd (hsecond deadline hdeadline) (Nat.not_lt_of_le (hfirst limit hlimit))

/-- A call that is tried again gave no output and did not reject its parameters. -/
theorem Retryable.not_answers {call : Call} (hretry : job.Retryable call)
    {result : Except HandlerFault Json} (hresult : ∀ text, result ≠ .error (.failed text)) :
    ¬ job.Answers call result := by
  intro hanswers
  rcases hretry with ⟨text, hfailed⟩ | hover
  · exact hresult text (hanswers.unique hfailed)
  · exact hanswers.inTime.not_overdue hover

/-- A call that is tried again is not cut off. -/
theorem Retryable.not_cutOff {call : Call} (hretry : job.Retryable call) : ¬ job.CutOff call := by
  rcases hretry with ⟨text, hfailed⟩ | hover
  · exact hfailed.inTime.not_cutOff
  · exact hover.not_cutOff

/-! ## The reply -/

/-- A reply is an error of the node, with a fault of the given kind and message, and with
the number of the last call as that of the attempts made. -/
structure FailsWith (job : Job) (last : Call) (reply : Reply) (fault : DispatchFault)
    (kind : FaultKind) (text : String) : Prop where
  reply_eq : reply = .error ⟨job.node.id, fault, last.attempt⟩
  kind_eq : fault.kind = kind
  message_eq : fault.message = text

/-- The reply of a dispatch follows from its last call. -/
structure RepliesTo (job : Job) (last : Call) (reply : Reply) : Prop where
  /-- It gives an output just if the last call does, and the number of the last call. -/
  output_iff : ∀ dispatched, reply = .ok dispatched ↔
    job.Answers last (.ok dispatched.output) ∧ dispatched.attempts = last.attempt
  /-- Rejected parameters are the fault. -/
  rejected : ∀ fault, job.Answers last (.error (.invalidParameters fault)) →
    job.FailsWith last reply (.invalidParameters fault) .invalidParameters fault.message
  /-- The failure of the last call that the policy allows is the fault. -/
  failed : last.attempt = job.node.options.retry.attempts →
    ∀ text, job.Answers last (.error (.failed text)) →
      job.FailsWith last reply (.failed text) .failed text
  /-- So is its passed limit. -/
  overdue : last.attempt = job.node.options.retry.attempts → job.Overdue last →
    let seconds := job.node.options.startToCloseTimeout.toNat
    job.FailsWith last reply (.startToClose seconds) .timeout
      ("start-to-close timeout of " ++ toString seconds ++ "s elapsed")
  /-- Every other fault is the passed deadline. -/
  expired : (∀ fault, ¬ job.Answers last (.error (.invalidParameters fault))) →
    ¬ (last.attempt = job.node.options.retry.attempts ∧ job.Retryable last) →
    ∀ e, reply = .error e →
      let seconds := job.node.options.scheduleToCloseTimeout.toNat
      job.FailsWith last reply (.scheduleToClose seconds) .timeout
        ("schedule-to-close timeout of " ++ toString seconds ++ "s elapsed")

section Ending

variable {last : Call} {reply : Reply} {endMs : Nat} (hend : job.Ending last reply endMs)

include hend

/-- The output of the last call is the output of the dispatch. -/
theorem Ending.reply_of_output {output : Json} (hanswers : job.Answers last (.ok output)) :
    reply = .ok ⟨output, last.attempt⟩ := by
  cases hend with
  | succeeded hother => rw [Except.ok.inj (hanswers.unique hother)]
  | rejected hother => cases hanswers.unique hother
  | failed _ hother => cases hanswers.unique hother
  | overdue _ hover => exact absurd hover hanswers.inTime.not_overdue
  | cutOff hcut => exact absurd hcut hanswers.inTime.not_cutOff
  | waited _ hretry => exact absurd hanswers (hretry.not_answers (by simp))

/-- Parameters that the last call rejects are the fault of the dispatch. -/
theorem Ending.reply_of_rejected {fault : ParameterFault}
    (hanswers : job.Answers last (.error (.invalidParameters fault))) :
    reply = .error ⟨job.node.id, .invalidParameters fault, last.attempt⟩ := by
  cases hend with
  | succeeded hother => cases hanswers.unique hother
  | rejected hother => cases hanswers.unique hother; rfl
  | failed _ hother => cases hanswers.unique hother
  | overdue _ hover => exact absurd hover hanswers.inTime.not_overdue
  | cutOff hcut => exact absurd hcut hanswers.inTime.not_cutOff
  | waited _ hretry => exact absurd hanswers (hretry.not_answers (by simp))

/-- The failure of the last call allowed is the fault of the dispatch. -/
theorem Ending.reply_of_failed (hlast : last.attempt = job.node.options.retry.attempts)
    {text : String} (hanswers : job.Answers last (.error (.failed text))) :
    reply = .error ⟨job.node.id, .failed text, last.attempt⟩ := by
  cases hend with
  | succeeded hother => cases hanswers.unique hother
  | rejected hother => cases hanswers.unique hother
  | failed _ hother => cases hanswers.unique hother; rfl
  | overdue _ hover => exact absurd hover hanswers.inTime.not_overdue
  | cutOff hcut => exact absurd hcut hanswers.inTime.not_cutOff
  | waited hleft => exact absurd hlast (Nat.ne_of_lt hleft)

/-- The passed limit of the last call allowed is the fault of the dispatch. -/
theorem Ending.reply_of_overdue (hlast : last.attempt = job.node.options.retry.attempts)
    (hover : job.Overdue last) :
    reply = .error ⟨job.node.id,
      .startToClose job.node.options.startToCloseTimeout.toNat, last.attempt⟩ := by
  cases hend with
  | succeeded hanswers => exact absurd hover hanswers.inTime.not_overdue
  | rejected hanswers => exact absurd hover hanswers.inTime.not_overdue
  | failed _ hanswers => exact absurd hover hanswers.inTime.not_overdue
  | overdue => rfl
  | cutOff hcut => exact absurd hcut hover.not_cutOff
  | waited hleft => exact absurd hlast (Nat.ne_of_lt hleft)

/-- The way in which a dispatch ends settles its reply. -/
theorem Ending.repliesTo : job.RepliesTo last reply where
  output_iff dispatched := by
    constructor
    · rintro rfl
      cases hend with
      | succeeded hanswers => exact ⟨hanswers, rfl⟩
    · rintro ⟨hanswers, hattempts⟩
      rw [hend.reply_of_output hanswers, ← hattempts]
  rejected _ hanswers := ⟨hend.reply_of_rejected hanswers, rfl, rfl⟩
  failed hlast _ hanswers := ⟨hend.reply_of_failed hlast hanswers, rfl, rfl⟩
  overdue hlast hover := ⟨hend.reply_of_overdue hlast hover, rfl, rfl⟩
  expired hrejected hretry e he := by
    subst he
    cases hend with
    | rejected hanswers => exact absurd hanswers (hrejected _)
    | failed hlast hanswers => exact absurd ⟨hlast, .inl ⟨_, hanswers⟩⟩ hretry
    | overdue hlast hover => exact absurd ⟨hlast, .inr hover⟩ hretry
    | cutOff => exact ⟨rfl, rfl, rfl⟩
    | waited => exact ⟨rfl, rfl, rfl⟩

end Ending

/-! ## Rows follow the policy -/

/-- A dispatch follows the retry policy. -/
structure Follows (job : Job) (record : DispatchRecord) : Prop where
  /-- The calls are numbered from one on. -/
  numbered : record.calls.map Call.attempt = List.range' 1 record.calls.length
  /-- There are no more calls than the policy allows. -/
  length_le : record.calls.length ≤ job.node.options.retry.attempts
  /-- Every call but the last failed, or its own limit passed. -/
  retryable : ∀ call ∈ record.calls.dropLast, job.Retryable call
  /-- A call that rejects its parameters is the last one. -/
  rejected_last : ∀ call ∈ record.calls, ∀ fault,
    job.Answers call (.error (.invalidParameters fault)) → record.calls.getLast? = some call
  /-- The reply follows from the last call, whose number is that of the calls made. -/
  reply : ∃ last reply, record.calls.getLast? = some last ∧
    last.attempt = record.calls.length ∧ record.reply = some reply ∧ job.RepliesTo last reply ∧
    ∀ e, reply = .error e → e.nodeId = job.node.id ∧ e.attempts = record.calls.length

/-- A row of calls from the first on follows the retry policy. -/
theorem Row.follows {call : Call} {record : DispatchRecord} (hrow : job.Row call record)
    (hfirst : call.attempt = 1) : job.Follows record where
  numbered := hfirst ▸ hrow.numbered
  length_le := by
    have := hrow.length_le (hfirst ▸ job.node.options.retry.attempts_pos)
    omega
  retryable := hrow.retryable
  rejected_last c hc fault hanswers := by
    obtain ⟨last, _, hlast, _⟩ := hrow.ending
    obtain ⟨earlier, hcalls⟩ := List.getLast?_eq_some_iff.mp hlast
    have hretryable := hrow.retryable
    rw [hcalls, List.dropLast_concat] at hretryable
    rw [hcalls, List.mem_append, List.mem_singleton] at hc
    rcases hc with hearlier | rfl
    · exact absurd hanswers ((hretryable c hearlier).not_answers (by simp))
    · exact hlast
  reply := by
    obtain ⟨last, reply, hlast, hnumber, hreply, hend⟩ := hrow.ending
    have hlength : last.attempt = record.calls.length := by omega
    refine ⟨last, reply, hlast, hlength, hreply, hend.repliesTo, ?_⟩
    rintro e rfl
    exact ⟨hend.error_eq.1, hend.error_eq.2.trans hlength⟩

/-! ## What the handler is asked -/

/-- Every call of a row is given what the node holds, the payload of the dispatch and its
own number. -/
theorem Row.given {call : Call} {record : DispatchRecord} (hrow : job.Row call record) :
    ∀ c ∈ record.calls, c.input =
      { nodeId := job.node.id
        nodeName := job.node.displayName
        nodeType := job.node.typeTag
        parameters := job.node.parameters
        payload := job.payload
        attempt := c.attempt } :=
  hrow.gives

/-- Another handler answers the recorded calls as the handler does. -/
def AnswersAlike (job : Job) (other : Handler) (record : DispatchRecord) : Prop :=
  ∀ call ∈ record.calls, other call.input = job.handler call.input

/-- An attempt asks the handler only for its own input. -/
theorem attempt_congr {other : Handler} {input : ActivityInput} (now : Nat)
    (hsame : other input = job.handler input) :
    { job with handler := other }.attempt input now = job.attempt input now := by
  simp only [attempt, hsame]
  rfl

/-- After an attempt a dispatch ends at once or goes on. -/
theorem conclude_cases (job : Job) (number : Nat) (attempted : Attempt × Nat) :
    (∃ record, record.calls = [] ∧ ∀ again, job.conclude number again attempted = record) ∨
      ∃ fault, ∀ again, job.conclude number again attempted = again fault attempted.2 := by
  rcases attempted with ⟨outcome, done⟩
  cases outcome with
  | succeeded => exact .inl ⟨_, rfl, fun _ => rfl⟩
  | rejected => exact .inl ⟨_, rfl, fun _ => rfl⟩
  | failed text => exact .inr ⟨.failed text, fun _ => rfl⟩
  | timedOut =>
      by_cases hpast : job.isPast done = true
      · exact .inl ⟨job.fail job.expired number done, rfl, fun _ => by rw [conclude, if_pos hpast]⟩
      · exact .inr ⟨_, fun _ => by rw [conclude, if_neg hpast]⟩

/-- An attempt is made alike with a handler that answers it alike if the dispatch goes on
alike. -/
theorem attemptFrom_congr_of_goOn {other : Handler} {remaining number : Nat} (now : Nat)
    (hgoOn : ∀ fault done, job.AnswersAlike other (job.goOn number remaining fault done) →
      { job with handler := other }.goOn number remaining fault done =
        job.goOn number remaining fault done)
    (hsame : job.AnswersAlike other (job.attemptFrom remaining number now)) :
    { job with handler := other }.attemptFrom remaining number now =
      job.attemptFrom remaining number now := by
  by_cases hopen : job.IsOpen now
  · have hopen' : { job with handler := other }.IsOpen now := hopen
    rw [attemptFrom_of_isOpen _ _ hopen] at hsame ⊢
    have hinput : { job with handler := other }.input number = job.input number := rfl
    have hfirst : other (job.input number) = job.handler (job.input number) :=
      hsame _ List.mem_cons_self
    have hrest := (List.forall_mem_cons.mp hsame).2
    rw [attemptFrom_of_isOpen _ _ hopen', hinput, attempt_congr now hfirst]
    have hconclude : { job with handler := other }.conclude number = job.conclude number := rfl
    rw [hconclude]
    rcases job.conclude_cases number (job.attempt (job.input number) now) with
      ⟨record, -, hends⟩ | ⟨fault, hgoes⟩
    · rw [hends, hends]
    · rw [hgoes] at hrest
      rw [hgoes, hgoes, hgoOn fault _ hrest]
  · obtain ⟨deadline, hdeadline, hle⟩ := not_isOpen_iff.mp hopen
    have hdeadline' : { job with handler := other }.deadline = some deadline := hdeadline
    rw [attemptFrom_of_isPast _ _ (isPast_of_le hdeadline hle),
      attemptFrom_of_isPast _ _ (isPast_of_le hdeadline' hle)]
    rfl

/-- Attempts ask the handler only for the calls that they record: with a handler that
answers these alike, a dispatch makes the same attempts. -/
theorem attemptFrom_congr {other : Handler} (remaining number now : Nat)
    (hsame : job.AnswersAlike other (job.attemptFrom remaining number now)) :
    { job with handler := other }.attemptFrom remaining number now =
      job.attemptFrom remaining number now := by
  induction remaining generalizing number now with
  | zero => exact attemptFrom_congr_of_goOn now (fun _ _ _ => rfl) hsame
  | succ remaining ih =>
      refine attemptFrom_congr_of_goOn now (fun fault done hgoOn => ?_) hsame
      rw [goOn] at hgoOn
      rw [goOn, goOn]
      cases hnext : job.resume number done with
      | error deadline =>
          have hnext' : { job with handler := other }.resume number done = .error deadline := hnext
          rw [hnext']
          rfl
      | ok next =>
          have hnext' : { job with handler := other }.resume number done = .ok next := hnext
          rw [hnext] at hgoOn
          rw [hnext']
          exact ih (number + 1) next hgoOn

end Dispatch.Job

/-! ## Dispatches of a registry -/

namespace Registry

variable (registry : Registry) (clock : Clock) (node : Node) (payload : Json) (now : Nat)

/-- A registered handler is the one of its tag. -/
theorem handler?_register (typeTag : String) (handler : Handler) :
    (registry.register typeTag handler).handler? typeTag = some handler := by
  simp [register, handler?]

/-- Dispatching follows the retry policy, if the deadline lies within the clock.  A node
without a handler is not called.  Every other node is called with the numbers from one
on, each time with what the node holds and with the same payload, and how the dispatch
goes depends on nothing but what the handler answers to the recorded calls. -/
theorem dispatch_follows_policy (hfits : ¬ registry.Overruns clock node now) :
    (registry.handler? node.typeTag = none →
      registry.dispatch clock node payload now =
        ⟨some (.error ⟨node.id, .unknownType node.typeTag, 0⟩), now, []⟩) ∧
    ∀ handler, registry.handler? node.typeTag = some handler →
      let record := registry.dispatch clock node payload now
      (∀ call ∈ record.calls, call.input =
        { nodeId := node.id
          nodeName := node.displayName
          nodeType := node.typeTag
          parameters := node.parameters
          payload := payload
          attempt := call.attempt }) ∧
      (Dispatch.Job.start node handler payload now).Follows record ∧
        ∀ other : Handler, (∀ call ∈ record.calls, other call.input = handler call.input) →
          (registry.register node.typeTag other).dispatch clock node payload now = record := by
  refine ⟨registry.dispatch_of_handler?_eq_none clock node payload now, fun handler hhandler => ?_⟩
  have hrow := registry.row_dispatch clock node payload now hhandler hfits
  refine ⟨hrow.given, hrow.follows rfl, fun other hsame => ?_⟩
  have hother := registry.handler?_register node.typeTag other
  have hfits' : ¬ (registry.register node.typeTag other).Overruns clock node now := fun hover =>
    hfits ⟨by simp [contains, hhandler], hover.limited, hover.late⟩
  rw [dispatch_of_handler?_eq_some registry clock node payload now hhandler hfits] at hsame ⊢
  rw [dispatch_of_handler?_eq_some _ clock node payload now hother hfits']
  exact Dispatch.Job.attemptFrom_congr _ _ _ hsame

/-- A handler whose first attempt fails and that then passes its payload on. -/
def flaky : Handler := fun input =>
  ⟨0, if input.attempt = 1 then .error (.failed "again") else .ok input.payload⟩

/-- A registry of one handler whose first attempt fails. -/
def flakyOnly : Registry := empty.register "acme.flaky" flaky

/-- A node of the flaky handler under the default policy, with a minute for all. -/
def flakyNode : Node :=
  { Node.new "flaky" "acme.flaky" with
    parameters := [("queue", .string "support")]
    options.scheduleToCloseTimeout := 60 }

/-- The open ticket that the node is called with. -/
def openTicket : Json := .object [("ticket", .string "open")]

/-- The ticket is passed on by the second call; the first one was given the same. -/
theorem dispatch_follows_policy_flaky :
    let record := flakyOnly.dispatch (.upFor 86400) flakyNode openTicket 0
    ¬ flakyOnly.Overruns (.upFor 86400) flakyNode 0 ∧
      flakyOnly.handler? flakyNode.typeTag = some flaky ∧
      record.calls.map (fun call => (call.attempt, call.atMs)) = [(1, 0), (2, 1000)] ∧
      (∀ call ∈ record.calls, call.input.nodeId = "flaky" ∧ call.input.payload = openTicket ∧
        call.input.parameters = [("queue", .string "support")]) ∧
      record.reply = some (.ok ⟨openTicket, 2⟩) := by
  intro record
  have hfits : ¬ flakyOnly.Overruns (.upFor 86400) flakyNode 0 := fun hover =>
    absurd hover.late (by decide)
  have hhandler : flakyOnly.handler? flakyNode.typeTag = some flaky := rfl
  have hcalls : record.calls.map (fun call => (call.attempt, call.atMs)) =
      [(1, 0), (2, 1000)] := by decide +kernel
  obtain ⟨hgiven, hfollows, -⟩ :=
    (dispatch_follows_policy flakyOnly (.upFor 86400) flakyNode openTicket 0 hfits).2 flaky hhandler
  refine ⟨hfits, hhandler, hcalls, fun call hcall => ?_, ?_⟩
  · rw [hgiven call hcall]
    exact ⟨rfl, rfl, rfl⟩
  · obtain ⟨last, reply, hlast, -, hreply, hreplies, -⟩ := hfollows.reply
    have htimes : (last.attempt, last.atMs) = (2, 1000) := by
      have hends := congrArg List.getLast? hcalls
      rw [List.getLast?_map, hlast] at hends
      exact Option.some.inj hends
    obtain ⟨hattempt, hat⟩ := Prod.mk.inj htimes
    have hinput := hgiven last (List.mem_of_getLast? hlast)
    have htime : (Dispatch.Job.start flakyNode flaky openTicket 0).InTime last := by
      refine ⟨fun limit _ => Nat.zero_le limit, fun deadline hdeadline => ?_⟩
      obtain ⟨-, rfl⟩ := Dispatch.Job.deadline_start_eq_some_iff.mp hdeadline
      show last.atMs + 0 ≤ 60000
      omega
    have hanswer : (flaky last.input).result = .ok openTicket := by
      rw [hinput, hattempt]
      rfl
    rw [hreply, (hreplies.output_iff ⟨openTicket, 2⟩).mpr ⟨⟨htime, hanswer⟩, hattempt.symm⟩]

end Registry

end FlowGraph
