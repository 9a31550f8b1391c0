import FlowGraph.Activity.Registry
import FlowGraph.Proofs.Activity.Branch
import FlowGraph.Proofs.Fallible
import FlowGraph.Proofs.Workflow.Declared

/-!
# The built-in routers

A two-way router chooses by its conditions, a switch by its cases.  The choice is written
into the `branch` member of the payload and nothing else is changed, and the hops of the
router are the targets of the choice.  A `branch` that an earlier router wrote makes no
difference unless the router reads it.

Main results:

- Theorem `ifRouter_eq_ok_iff`, `switchRouter_eq_ok_iff`: the choices with which a router
  succeeds.
- Theorem `router_congr`: a router depends on what it reads and on what it writes into.
- Theorem `router_decides_alone`: what a router makes of a payload, and where it leads.
-/

namespace FlowGraph

namespace Builtin

variable {input : ActivityInput} {choice : Option String}

/-! ## What a router chooses -/

/-- The conditions that the parameters of a two-way router list, at least one. -/
def Asks (input : ActivityInput) (conditions : List Condition) : Prop :=
  ∃ items, input.parameter? "conditions" = some (.array items) ∧ items ≠ [] ∧
    List.Forall₂ (fun item condition => Condition.read item = .ok condition) items conditions

/-- One condition is enough if the combinator is `or`; all must hold if it is `and` or no
text. -/
def OneSuffices (input : ActivityInput) : Bool → Prop
  | true => input.parameter? "combinator" = some (.string "or")
  | false => ∀ name, input.parameter? "combinator" = some (.string name) → name = "and"

/-- The field of a payload that a switch compares, if there is one. -/
def Compares (input : ActivityInput) (actual : Option Json) : Prop :=
  ∃ field, input.parameter? "field" = some (.string field) ∧
    FieldPath.resolve input.payload field = actual

/-- The cases of a switch; it may have none. -/
def Offers (input : ActivityInput) (cases : List Json) : Prop :=
  input.parameter? "cases" = some (.array cases) ∨
    input.parameter? "cases" = none ∧ cases = []

/-- The output that a case names. -/
def Names (case : Json) (output : String) : Prop := case.member? "output" = some (.string output)

/-- The actual value, if there is one, loosely equals that of the case. -/
def Fits (actual : Option Json) (case : Json) : Prop :=
  ∃ v, actual = some v ∧ v.looselyEqual ((case.member? "value").getD .null) = true

/-- The case names an output but is none for the actual value. -/
def PassedOver (actual : Option Json) (case : Json) : Prop :=
  (∃ output, Names case output) ∧ ¬ Fits actual case

/-- The selected output is that of the first case for the actual value, or there is none
because all cases are passed over. -/
def Selects (actual : Option Json) (cases : List Json) (selected : Option String) : Prop :=
  (∃ before case after output, cases = before ++ case :: after ∧
    (∀ earlier ∈ before, PassedOver actual earlier) ∧ Fits actual case ∧ Names case output ∧
    selected = some output) ∨
  (∀ case ∈ cases, PassedOver actual case) ∧ selected = none

/-- The output that a switch falls back to. -/
def fallback (input : ActivityInput) : Option String :=
  (input.parameter? "fallbackOutput").bind Json.string?

/-- What a router chooses: by all or any of its conditions, or by its first case for the
field of the payload. -/
inductive Chooses (input : ActivityInput) : RouterKind → Option String → Prop where
  | byAll {conditions : List Condition} : Asks input conditions → OneSuffices input false →
      Chooses input .ifRouter
        (some (if ∀ c ∈ conditions, c.evaluate input.payload then "true" else "false"))
  | byAny {conditions : List Condition} : Asks input conditions → OneSuffices input true →
      Chooses input .ifRouter
        (some (if ∃ c ∈ conditions, c.evaluate input.payload then "true" else "false"))
  | byCase {actual : Option Json} {cases : List Json} {selected : Option String} :
      Compares input actual → Offers input cases → Selects actual cases selected →
      Chooses input .switchRouter (selected.or (fallback input))

/-- A two-way router reads its conditions from the parameters. -/
theorem conditions_eq_ok_iff {found : List Condition} :
    conditions input = .ok found ↔ Asks input found := by
  have hread (v : Json) (c : Condition) :
      readCondition v = .ok c ↔ Condition.read v = .ok c := by
    unfold readCondition
    split <;> simp [*]
  unfold conditions Asks
  split
  · next first rest hparameter =>
    simp only [hparameter, mapM_eq_ok_iff, hread]
    constructor
    · intro hitems
      exact ⟨first :: rest, rfl, List.cons_ne_nil _ _, hitems⟩
    · rintro ⟨items, hsame, -, hitems⟩
      cases hsame
      exact hitems
  · next hother =>
    constructor
    · intro herror
      cases herror
    · rintro ⟨items, hparameter, hne, -⟩
      cases items with
      | nil => exact absurd rfl hne
      | cons first rest => exact absurd hparameter (hother first rest)

/-- A text is read from a parameter if the parameter is this text. -/
theorem bind_string?_eq_some_iff {v : Option Json} {text : String} :
    v.bind Json.string? = some text ↔ v = some (.string text) := by
  rcases v with _ | v
  · exact ⟨nofun, nofun⟩
  · cases v <;> simp [Json.string?]

/-- A two-way router reads its combinator from the parameters. -/
theorem anySuffices_eq_ok_iff {any : Bool} :
    anySuffices input = .ok any ↔ OneSuffices input any := by
  have hall : OneSuffices input false ↔
      ∀ name, (input.parameter? "combinator").bind Json.string? = some name → name = "and" := by
    simp only [OneSuffices, bind_string?_eq_some_iff]
  have hone : OneSuffices input true ↔
      (input.parameter? "combinator").bind Json.string? = some "or" :=
    bind_string?_eq_some_iff.symm
  unfold anySuffices
  cases any with
  | true =>
      rw [hone]
      generalize (input.parameter? "combinator").bind Json.string? = combinator
      split <;> simp_all
  | false =>
      rw [hall]
      generalize (input.parameter? "combinator").bind Json.string? = combinator
      split <;> simp_all

/-- A two-way router succeeds with its choice. -/
theorem ifRouter_eq_ok_iff {output : Json} :
    ifRouter input = .ok output ↔
      ∃ choice, Chooses input .ifRouter choice ∧ output = withBranch input.payload choice := by
  unfold ifRouter
  simp only [bind_eq_ok, pure_eq_ok, conditions_eq_ok_iff, anySuffices_eq_ok_iff]
  constructor
  · rintro ⟨found, hasks, any, hsuffices, rfl⟩
    cases any with
    | true =>
        refine ⟨_, .byAny hasks hsuffices, ?_⟩
        simp only [if_true, List.any_eq_true]
    | false =>
        refine ⟨_, .byAll hasks hsuffices, ?_⟩
        simp only [Bool.false_eq_true, if_false, List.all_eq_true]
  · rintro ⟨choice, hchooses, rfl⟩
    cases hchooses with
    | @byAll found hasks hsuffices =>
        refine ⟨found, hasks, false, hsuffices, ?_⟩
        simp only [Bool.false_eq_true, if_false, List.all_eq_true]
    | @byAny found hasks hsuffices =>
        refine ⟨found, hasks, true, hsuffices, ?_⟩
        simp only [if_true, List.any_eq_true]

/-- The first case is selected, or it is passed over and the selection is among the rest. -/
theorem selects_cons_iff {actual : Option Json} {first : Json} {rest : List Json}
    {selected : Option String} :
    Selects actual (first :: rest) selected ↔
      (Fits actual first ∧ ∃ output, Names first output ∧ selected = some output) ∨
        PassedOver actual first ∧ Selects actual rest selected := by
  constructor
  · rintro (⟨before, case, after, output, hcases, hbefore, hfits, hnames, rfl⟩ | ⟨hall, rfl⟩)
    · cases before with
      | nil =>
          obtain ⟨rfl, rfl⟩ := List.cons.inj hcases
          exact .inl ⟨hfits, output, hnames, rfl⟩
      | cons earlier before =>
          obtain ⟨rfl, rfl⟩ := List.cons.inj hcases
          obtain ⟨hfirst, hbefore⟩ := List.forall_mem_cons.mp hbefore
          exact .inr ⟨hfirst, .inl ⟨before, case, after, output, rfl, hbefore, hfits, hnames, rfl⟩⟩
    · obtain ⟨hfirst, hrest⟩ := List.forall_mem_cons.mp hall
      exact .inr ⟨hfirst, .inr ⟨hrest, rfl⟩⟩
  · rintro (⟨hfits, output, hnames, rfl⟩ | ⟨hfirst, hrest⟩)
    · exact .inl ⟨[], first, rest, output, rfl, nofun, hfits, hnames, rfl⟩
    · rcases hrest with ⟨before, case, after, output, rfl, hbefore, hfits, hnames, rfl⟩ |
        ⟨hall, rfl⟩
      · exact .inl ⟨first :: before, case, after, output, rfl,
          List.forall_mem_cons.mpr ⟨hfirst, hbefore⟩, hfits, hnames, rfl⟩
      · exact .inr ⟨List.forall_mem_cons.mpr ⟨hfirst, hall⟩, rfl⟩

/-- A switch succeeds with the selection among its cases. -/
theorem matchingCase_eq_ok_iff {actual : Option Json} {cases : List Json}
    {selected : Option String} :
    matchingCase actual cases = .ok selected ↔ Selects actual cases selected := by
  induction cases with
  | nil => simp [matchingCase, Selects, eq_comm]
  | cons first rest ih =>
      rw [selects_cons_iff, ← ih, matchingCase]
      have hfits : actual.any (fun v => v.looselyEqual ((first.member? "value").getD .null)) =
          true ↔ Fits actual first := by
        cases actual <;> simp [Fits]
      split
      · next hnone =>
        have hnameless : ¬ ∃ output, Names first output := by
          rintro ⟨output, hnames⟩
          rw [bind_string?_eq_some_iff.mpr hnames] at hnone
          cases hnone
        constructor
        · exact nofun
        · rintro (⟨-, output, hnames, -⟩ | ⟨hpassed, -⟩)
          · exact absurd ⟨output, hnames⟩ hnameless
          · exact absurd hpassed.1 hnameless
      · next output houtput =>
        have hnames (other : String) : Names first other ↔ output = other := by
          rw [Names, ← bind_string?_eq_some_iff, houtput, Option.some.injEq]
        by_cases hfirst : Fits actual first
        · rw [if_pos (hfits.mpr hfirst), Except.ok.injEq]
          constructor
          · rintro rfl
            exact .inl ⟨hfirst, output, (hnames output).mpr rfl, rfl⟩
          · rintro (⟨-, other, hother, rfl⟩ | ⟨hpassed, -⟩)
            · rw [(hnames other).mp hother]
            · exact absurd hfirst hpassed.2
        · rw [if_neg fun hany => hfirst (hfits.mp hany)]
          constructor
          · intro hrest
            exact .inr ⟨⟨⟨output, (hnames output).mpr rfl⟩, hfirst⟩, hrest⟩
          · rintro (⟨hfits, -⟩ | ⟨-, hrest⟩)
            · exact absurd hfits hfirst
            · exact hrest

/-- The name of the field that a switch compares. -/
def switchField (input : ActivityInput) : Except HandlerFault String :=
  match (input.parameter? "field").bind Json.string? with
  | some field => .ok field
  | none => .error (.invalidParameters .fieldMissing)

/-- The cases of a switch. -/
def switchCases (input : ActivityInput) : Except HandlerFault (List Json) :=
  match input.parameter? "cases" with
  | some (.array cases) => .ok cases
  | none => .ok []
  | some other => .error (.invalidParameters (.casesNotArray other))

/-- A switch reads its field and its cases and selects one.  Read as one sequence, its
result follows from those of the parts. -/
theorem switchRouter_eq (input : ActivityInput) :
    switchRouter input = do
      let field ← switchField input
      let cases ← switchCases input
      let selected ← matchingCase (FieldPath.resolve input.payload field) cases
      return withBranch input.payload (selected.or (fallback input)) := by
  unfold switchRouter switchField switchCases
  cases (input.parameter? "field").bind Json.string? with
  | none => rfl
  | some field =>
      cases input.parameter? "cases" with
      | none => rfl
      | some cases => cases cases <;> rfl

theorem switchField_eq_ok_iff {field : String} :
    switchField input = .ok field ↔ input.parameter? "field" = some (.string field) := by
  rw [← bind_string?_eq_some_iff, switchField]
  split <;> simp [*]

theorem switchCases_eq_ok_iff {cases : List Json} :
    switchCases input = .ok cases ↔ Offers input cases := by
  unfold switchCases Offers
  split
  · next found hfound => simp [hfound, eq_comm]
  · next hnone => simp [hnone, eq_comm]
  · next other hother hfound =>
    rw [hfound]
    constructor
    · exact nofun
    · rintro (hsame | ⟨hnone, -⟩)
      · exact absurd (Option.some.inj hsame) (hother cases)
      · cases hnone

/-- A switch succeeds with its choice. -/
theorem switchRouter_eq_ok_iff {output : Json} :
    switchRouter input = .ok output ↔
      ∃ choice, Chooses input .switchRouter choice ∧
        output = withBranch input.payload choice := by
  rw [switchRouter_eq]
  simp only [bind_eq_ok, pure_eq_ok, switchField_eq_ok_iff, switchCases_eq_ok_iff,
    matchingCase_eq_ok_iff]
  constructor
  · rintro ⟨field, hfield, cases, hoffers, selected, hselects, rfl⟩
    exact ⟨_, .byCase ⟨field, hfield, rfl⟩ hoffers hselects, rfl⟩
  · rintro ⟨choice, hchooses, rfl⟩
    cases hchooses with
    | @byCase actual cases selected hcompares hoffers hselects =>
        obtain ⟨field, hfield, rfl⟩ := hcompares
        exact ⟨field, hfield, cases, hoffers, selected, hselects, rfl⟩

/-! ## The two routers as one -/

/-- The type tag of a built-in router. -/
def routerTag : RouterKind → String
  | .ifRouter => "twiddle.if"
  | .switchRouter => "twiddle.switch"

/-- The work of a built-in router. -/
def router : RouterKind → ActivityInput → Except HandlerFault Json
  | .ifRouter => ifRouter
  | .switchRouter => switchRouter

/-- The built-in handler of a router answers at once with its work. -/
theorem handler?_routerTag (kind : RouterKind) :
    Registry.builtin.handler? (routerTag kind) = some (.immediate (router kind)) := by
  cases kind <;> rfl

/-- The tag of a built-in router names its kind. -/
theorem ofTag_routerTag (kind : RouterKind) :
    NodeKind.ofTag (routerTag kind) = .router kind := by
  cases kind <;> decide +kernel

/-- A router succeeds with its choice. -/
theorem router_eq_ok_iff {kind : RouterKind} {output : Json} :
    router kind input = .ok output ↔
      ∃ choice, Chooses input kind choice ∧ output = withBranch input.payload choice := by
  cases kind with
  | ifRouter => exact ifRouter_eq_ok_iff
  | switchRouter => exact switchRouter_eq_ok_iff

/-- A router that succeeds has one choice. -/
theorem Chooses.unique {kind : RouterKind} {other : Option String}
    (hchooses : Chooses input kind choice) (hother : Chooses input kind other) :
    choice = other := by
  have hfirst := router_eq_ok_iff.mpr ⟨choice, hchooses, rfl⟩
  have hsecond := router_eq_ok_iff.mpr ⟨other, hother, rfl⟩
  exact withBranch_injective (Except.ok.inj (hfirst.symm.trans hsecond))

/-! ## Payloads that carry a branch in -/

/-- The paths at which a router reads the payload. -/
def Reads (input : ActivityInput) : RouterKind → String → Prop
  | .ifRouter, path => ∃ conditions, Asks input conditions ∧ ∃ c ∈ conditions, c.field = path
  | .switchRouter, path => input.parameter? "field" = some (.string path)

/-- Two attempts with the same parameters, whose payloads agree where the router reads
them and in what it writes, have the same result. -/
theorem router_congr {kind : RouterKind} {first second : ActivityInput}
    (hparameters : first.parameters = second.parameters)
    (hreads : ∀ path, Reads second kind path →
      FieldPath.resolve first.payload path = FieldPath.resolve second.payload path)
    (hwrites : ∀ choice, withBranch first.payload choice = withBranch second.payload choice) :
    router kind first = router kind second := by
  have hparameter (key : String) : first.parameter? key = second.parameter? key := by
    rw [ActivityInput.parameter?, ActivityInput.parameter?, hparameters]
  cases kind with
  | ifRouter =>
      have hconditions : conditions first = conditions second := by
        rw [conditions, conditions, hparameter]
      have hany : anySuffices first = anySuffices second := by
        rw [anySuffices, anySuffices, hparameter]
      show ifRouter first = ifRouter second
      rw [ifRouter, ifRouter, hconditions, hany]
      cases hfound : conditions second with
      | error fault => rfl
      | ok found =>
          have hasks := conditions_eq_ok_iff.mp hfound
          have hanswers : found.map (·.evaluate first.payload) =
              found.map (·.evaluate second.payload) := by
            apply List.map_congr_left
            intro c hc
            rw [Condition.evaluate, Condition.evaluate, hreads c.field ⟨found, hasks, c, hc, rfl⟩]
          have hall : found.all (·.evaluate first.payload) =
              found.all (·.evaluate second.payload) := by
            simpa only [List.all_map, Function.id_comp] using congrArg (List.all · id) hanswers
          have hsome : found.any (·.evaluate first.payload) =
              found.any (·.evaluate second.payload) := by
            simpa only [List.any_map, Function.id_comp] using congrArg (List.any · id) hanswers
          simp only [ok_bind, hall, hsome, hwrites]
  | switchRouter =>
      have hfield : switchField first = switchField second := by
        rw [switchField, switchField, hparameter]
      have hcases : switchCases first = switchCases second := by
        rw [switchCases, switchCases, hparameter]
      have hfallback : fallback first = fallback second := by
        rw [fallback, fallback, hparameter]
      show switchRouter first = switchRouter second
      rw [switchRouter_eq, switchRouter_eq, hfield, hcases, hfallback]
      cases hfound : switchField second with
      | error fault => rfl
      | ok field =>
          have hresolve := hreads field (switchField_eq_ok_iff.mp hfound)
          simp only [ok_bind, hresolve, hwrites]

/-- A router that does not read `branch` ignores what an earlier router wrote there. -/
theorem router_putBranch {kind : RouterKind} {members : Members}
    (hpayload : input.payload = .object members)
    (havoids : ∀ path, Reads input kind path → FieldPath.Avoids path branchField)
    (stale : Json) :
    router kind { input with payload := .object (members.put branchField stale) } =
      router kind input := by
  have hparameters : { input with payload := .object (members.put branchField stale) }.parameters =
      input.parameters := rfl
  apply router_congr hparameters
  · intro path hreads
    rw [hpayload]
    exact FieldPath.resolve_put (havoids path hreads) members stale
  · intro choice
    rw [hpayload]
    exact withBranch_putBranch members stale choice

/-! ## Where a router leads -/

/-- A built-in router that succeeds has one choice.  Its output is the payload, read as an
object, with the choice as `branch`, its hops are the targets of the label that the choice
leads to, in declaration order, and a `branch` that the payload carries in makes no
difference unless the router reads it. -/
theorem router_decides_alone {kind : RouterKind} {node : Node} {handler : Handler}
    (htag : node.typeTag = routerTag kind)
    (hhandler : Registry.builtin.handler? node.typeTag = some handler)
    (payload : Json) (attempt : Nat) :
    let input : ActivityInput :=
      { nodeId := node.id
        nodeName := node.displayName
        nodeType := node.typeTag
        parameters := node.parameters
        payload := payload
        attempt := attempt }
    (∀ output, (handler input).result = .ok output →
      ∃ choice members, (∀ other, Chooses input kind other ↔ other = choice) ∧
        output = .object members ∧ CarriesOn payload choice members ∧
        ∀ (nodes : List Node) (connections : List Connection) (defaults : RouterDefaults),
          ∃ label, (∀ other, defaults.LeadsTo node kind choice other ↔ other = label) ∧
            (Graph.ofParts nodes connections).nextHops defaults node (some output) =
              ((Workflow.leaving connections node.id).filter fun c =>
                c.sourceOutput = label).map Connection.target) ∧
    (∀ members : Members, payload = .object members →
      (∀ path, Reads input kind path → FieldPath.Avoids path branchField) →
      ∀ stale, (handler { input with payload := .object (members.put branchField stale) }).result =
        (handler input).result) := by
  intro input
  obtain rfl : .immediate (router kind) = handler := by
    rw [htag, handler?_routerTag] at hhandler
    exact Option.some.inj hhandler
  constructor
  · intro output hresult
    obtain ⟨choice, hchooses, rfl⟩ := router_eq_ok_iff.mp hresult
    obtain ⟨members, houtput, hcarries⟩ := exists_withBranch payload choice
    refine ⟨choice, members, ?_, houtput, hcarries, ?_⟩
    · intro other
      constructor
      · intro hother
        exact hother.unique hchooses
      · rintro rfl
        exact hchooses
    · intro nodes connections defaults
      refine ⟨_, fun other => leadsTo_iff payload, ?_⟩
      simp only [Graph.nextHops, htag, ofTag_routerTag, Option.bind_some]
      rw [Workflow.targetsFor_ofParts]
  · intro members hpayload havoids stale
    exact router_putBranch hpayload havoids stale

/-- A switch on the state of a ticket. -/
def ticketSwitch : Node where
  id := "triage"
  typeTag := "twiddle.switch"
  parameters := [
    ("cases", .array [.object [("output", .string "work"), ("value", .string "open")]]),
    ("field", .string "state")]

/-- An open ticket that an earlier router has passed on. -/
def ticket : Members := [("branch", .string "new"), ("state", .string "open")]

/-- What the switch is given with a payload. -/
def ticketInput (payload : Json) : ActivityInput where
  nodeId := "triage"
  nodeName := "triage"
  nodeType := "twiddle.switch"
  parameters := ticketSwitch.parameters
  payload := payload
  attempt := 1

/-- An open ticket is worked on, whatever the earlier router chose, and stays open.  A text
that is no ticket has no state: it is carried on under `value`, without a `branch`. -/
theorem router_decides_alone_ticket :
    let handler := Handler.immediate (router .switchRouter)
    let graph := Graph.ofParts [ticketSwitch] [
      ⟨"triage", "new", "greet", "main"⟩, ⟨"triage", "work", "solve", "main"⟩]
    (∃ members, (handler (ticketInput (.object ticket))).result = .ok (.object members) ∧
      members.lookup "state" = some (.string "open") ∧
      members.lookup "branch" = some (.string "work") ∧ Members.Ordered members ∧
      graph.nextHops {} ticketSwitch (some (.object members)) = ["solve"]) ∧
    (∃ members, (handler (ticketInput (.string "hello"))).result = .ok (.object members) ∧
      members.lookup "value" = some (.string "hello") ∧ members.lookup "branch" = none) ∧
    (handler (ticketInput (.object (ticket.put branchField (.string "old"))))).result =
      (handler (ticketInput (.object ticket))).result := by
  intro handler graph
  have hhandler : Registry.builtin.handler? ticketSwitch.typeTag = some handler :=
    handler?_routerTag .switchRouter
  have htag : ticketSwitch.typeTag = routerTag .switchRouter := rfl
  obtain ⟨hroutes, hignores⟩ := router_decides_alone htag hhandler (.object ticket) 1
  refine ⟨?_, ?_, ?_⟩
  · have hchooses : Chooses (ticketInput (.object ticket)) .switchRouter (some "work") :=
      @Chooses.byCase _ _ _ (some "work") ⟨"state", rfl, rfl⟩ (.inl rfl)
        (.inl ⟨[], _, [], "work", rfl, nofun, ⟨.string "open", rfl, rfl⟩, rfl, rfl⟩)
    have hresult := router_eq_ok_iff.mpr ⟨_, hchooses, rfl⟩
    obtain ⟨choice, members, honly, houtput, hcarries, hhops⟩ := hroutes _ hresult
    obtain rfl := (honly (some "work")).mp hchooses
    rw [houtput] at hresult hhops
    refine ⟨members, hresult, ?_, hcarries.branch, ?_, ?_⟩
    · rw [hcarries.object ticket rfl "state" (by decide)]
      rfl
    · have hticket : ∀ carried, Json.object ticket = .object carried →
          Members.Ordered carried := by
        rintro _ ⟨⟩
        unfold Members.Ordered
        decide
      exact hcarries.ordered hticket
    · obtain ⟨label, hleads, htargets⟩ := hhops [ticketSwitch] _ {}
      obtain rfl := (hleads "work").mp (.chosen (by decide))
      rw [htargets]
      rfl
  · have hchooses : Chooses (ticketInput (.string "hello")) .switchRouter none :=
      @Chooses.byCase _ none _ none ⟨"state", rfl, rfl⟩ (.inl rfl)
        (.inr ⟨by simpa [PassedOver, Fits, Names] using ⟨"work", rfl⟩, rfl⟩)
    have hresult := router_eq_ok_iff.mpr ⟨_, hchooses, rfl⟩
    obtain ⟨choice, members, honly, houtput, hcarries, -⟩ :=
      (router_decides_alone htag hhandler (.string "hello") 1).1 _ hresult
    obtain rfl := (honly none).mp hchooses
    rw [houtput] at hresult
    refine ⟨members, hresult, ?_, hcarries.branch⟩
    rw [hcarries.value nofun nofun "value" (by decide), if_pos rfl]
  · apply hignores ticket rfl
    intro path hreads
    cases hreads
    exact ⟨"state".toList, [], rfl, by decide, rfl⟩

end Builtin

end FlowGraph
