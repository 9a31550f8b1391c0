import FlowGraph.Activity.Builtin
import Mathlib.Data.Option.Basic

/-!
# The branch member of a payload

A router answers with its payload, read as an object, whose `branch` member is its
choice.  This module says what that output holds, that the choice can be read off it,
and that nothing is left of a `branch` that the payload carried in.

Main results:

- Theorem `exists_withBranch`: the output holds the choice and the rest of the payload.
- Theorem `withBranch_putBranch`: a `branch` that is carried in leaves no trace.
- Theorem `leadsTo_iff`: a choice leads to the label in the output, or else to that of the
  router.
- Theorem `FieldPath.resolve_put`: a path that begins with another name leads past a
  write.
-/

namespace FlowGraph

/-! ## Writing and reading members -/

namespace Members

/-- A second write of a name replaces the first. -/
theorem put_put (members : Members) (key : String) (first second : Json) :
    (members.put key first).put key second = members.put key second := by
  induction members with
  | nil => simp [put]
  | cons m rest ih =>
      obtain ⟨k, v⟩ := m
      simp only [put]
      split
      · simp [put]
      · split
        · simp [put]
        · next hne hnlt => simp [put, hne, hnlt, ih]

/-- Removing a name undoes a write of it. -/
theorem put_without (members : Members) (key : String) (value : Json) :
    (members.put key value).without key = members.without key := by
  induction members with
  | nil => simp [put, without]
  | cons m rest ih =>
      obtain ⟨k, v⟩ := m
      simp only [put]
      split
      · next heq =>
        subst heq
        simp [without]
      · split
        · simp [without]
        · next hne _ =>
          unfold without at ih ⊢
          rw [List.filter_cons, ih, List.filter_cons]

end Members

namespace FieldPath

/-- The path begins with another name. -/
def Avoids (path name : String) : Prop :=
  ∃ first rest, segments path = first :: rest ∧ first ≠ name.toList ∧ path.isEmpty = false

/-- A path that begins with another name leads past a write. -/
theorem resolve_put {path key : String} (havoids : Avoids path key) (members : Members)
    (value : Json) :
    resolve (.object (members.put key value)) path = resolve (.object members) path := by
  obtain ⟨first, rest, hsegments, hother, hpath⟩ := havoids
  have hname : String.ofList first ≠ key := by
    intro heq
    apply hother
    rw [← heq, String.toList_ofList]
  have hstep : step (.object (members.put key value)) first = step (.object members) first := by
    simp only [step, Members.lookup_put, if_neg hname]
  simp only [resolve, hpath, hsegments, List.foldlM_cons, hstep, Bool.false_eq_true, if_false]

end FieldPath

/-! ## The label of a choice -/

/-- A value stands for a label: a text that is not empty, a boolean or an integer. -/
inductive StandsFor : Json → String → Prop where
  | text {label : String} : label ≠ "" → StandsFor (.string label) label
  | yes : StandsFor (.bool true) "true"
  | no : StandsFor (.bool false) "false"
  | integer (i : WordInteger) : StandsFor (.number (.integer i)) (toString i.val)

theorem branchLabelOf_eq_some_iff {v : Json} {label : String} :
    branchLabelOf v = some label ↔ StandsFor v label := by
  constructor
  · intro hlabel
    cases v with
    | string text =>
        simp only [branchLabelOf] at hlabel
        split at hlabel
        next => contradiction
        next htext =>
          obtain rfl := Option.some.inj hlabel
          exact .text (by simpa using htext)
    | bool b =>
        obtain rfl := Option.some.inj hlabel
        cases b with
        | true => exact .yes
        | false => exact .no
    | number n =>
        cases n with
        | integer i =>
            obtain rfl := Option.some.inj hlabel
            exact .integer i
        | real => contradiction
    | null => contradiction
    | array => contradiction
    | object => contradiction
  · intro hstands
    cases hstands with
    | text htext =>
        have hnonempty : label.isEmpty = false := by simpa using htext
        simp only [branchLabelOf, hnonempty, Bool.false_eq_true, if_false]
    | yes => rfl
    | no => rfl
    | integer => rfl

/-- A value stands for one label. -/
theorem StandsFor.unique {v : Json} {first second : String} (hfirst : StandsFor v first)
    (hsecond : StandsFor v second) : first = second :=
  Option.some.inj <|
    (branchLabelOf_eq_some_iff.mpr hfirst).symm.trans (branchLabelOf_eq_some_iff.mpr hsecond)

namespace RouterDefaults

/-- The node names no label of its own to fall back to. -/
def Unnamed (node : Node) : Prop :=
  ∀ v label, node.parameters.lookup "defaultBranch" = some v → ¬ StandsFor v label

/-- The label that a router falls back to: the one that its node names, or else that of
its kind. -/
inductive FallsBackTo (defaults : RouterDefaults) (node : Node) : RouterKind → String → Prop where
  | own {kind : RouterKind} {v : Json} {label : String} :
      node.parameters.lookup "defaultBranch" = some v → StandsFor v label →
      FallsBackTo defaults node kind label
  | ifRouter : Unnamed node → FallsBackTo defaults node .ifRouter defaults.ifBranch
  | switchRouter : Unnamed node → FallsBackTo defaults node .switchRouter defaults.switchBranch

/-- The label that a choice leads to: the text that is chosen, or the label that the
router falls back to if the text is empty or there is none. -/
inductive LeadsTo (defaults : RouterDefaults) (node : Node) (kind : RouterKind) :
    Option String → String → Prop where
  | chosen {text : String} : text ≠ "" → LeadsTo defaults node kind (some text) text
  | empty {label : String} : defaults.FallsBackTo node kind label →
      LeadsTo defaults node kind (some "") label
  | none {label : String} : defaults.FallsBackTo node kind label →
      LeadsTo defaults node kind none label

variable {defaults : RouterDefaults} {node : Node} {kind : RouterKind} {label : String}

theorem fallsBackTo_iff :
    defaults.FallsBackTo node kind label ↔ label = defaults.label node kind := by
  unfold RouterDefaults.label
  cases hnamed : (node.parameter? defaultBranchParameter).bind branchLabelOf with
  | some named =>
      obtain ⟨v, hlookup, hv⟩ := Option.bind_eq_some_iff.mp hnamed
      have hstands : StandsFor v named := branchLabelOf_eq_some_iff.mp hv
      constructor
      · intro hfalls
        cases hfalls with
        | own hother hlabel =>
            obtain rfl := Option.some.inj (hlookup.symm.trans hother)
            exact hlabel.unique hstands
        | ifRouter hnone => exact absurd hstands (hnone v _ hlookup)
        | switchRouter hnone => exact absurd hstands (hnone v _ hlookup)
      · rintro rfl
        exact .own hlookup hstands
  | none =>
      have hnone : Unnamed node := fun v label hlookup hstands =>
        absurd (branchLabelOf_eq_some_iff.mpr hstands)
          (by rw [Option.bind_eq_none_iff.mp hnamed v hlookup]; exact nofun)
      constructor
      · intro hfalls
        cases hfalls with
        | own hlookup hstands => exact absurd hstands (hnone _ _ hlookup)
        | ifRouter => rfl
        | switchRouter => rfl
      · rintro rfl
        cases kind with
        | ifRouter => exact .ifRouter hnone
        | switchRouter => exact .switchRouter hnone

end RouterDefaults

/-! ## The output of a router -/

namespace Builtin

variable {payload : Json} {choice : Option String}

/-- The members of a payload, read as an object, with a choice as their `branch`: no
other member differs.  Payloads that are read from a text have their members in order, by
`Json.ordered_of_parse`. -/
structure CarriesOn (payload : Json) (choice : Option String) (members : Members) : Prop where
  /-- Of an object every other member is kept. -/
  object : ∀ carried, payload = .object carried →
    ∀ key ≠ "branch", members.lookup key = carried.lookup key
  /-- Null has no members. -/
  null : payload = .null → ∀ key ≠ "branch", members.lookup key = none
  /-- Any other payload is itself the only other member, under `value`. -/
  value : (∀ carried, payload ≠ .object carried) → payload ≠ .null →
    ∀ key ≠ "branch", members.lookup key = if key = "value" then some payload else none
  /-- The `branch` is the choice, and without a choice there is none. -/
  branch : members.lookup "branch" = choice.map Json.string
  /-- The members stay in order. -/
  ordered : (∀ carried, payload = .object carried → Members.Ordered carried) → members.Ordered

/-- A payload that is neither an object nor null stands under `value`. -/
theorem asMembers_of_other (hobject : ∀ carried, payload ≠ .object carried)
    (hnull : payload ≠ .null) : asMembers payload = [("value", payload)] := by
  cases payload with
  | object carried => exact absurd rfl (hobject carried)
  | null => exact absurd rfl hnull
  | _ => rfl

/-- The members that a payload is read as are in order if those of an object are. -/
theorem ordered_asMembers
    (hordered : ∀ carried, payload = .object carried → Members.Ordered carried) :
    (asMembers payload).Ordered := by
  cases payload with
  | object carried => exact hordered carried rfl
  | null => exact .nil
  | _ => exact List.pairwise_singleton _ _

/-- A labelled payload holds the choice, and every other member that the payload is read
as having. -/
theorem exists_withBranch_eq_object (payload : Json) (choice : Option String) :
    ∃ members, withBranch payload choice = .object members ∧
      (∀ key ≠ branchField, members.lookup key = (asMembers payload).lookup key) ∧
      members.lookup branchField = choice.map Json.string ∧
      ((asMembers payload).Ordered → Members.Ordered members) := by
  cases choice with
  | some label =>
      refine ⟨_, rfl, fun key hkey => ?_, ?_, fun hordered => ?_⟩
      · rw [Members.lookup_put, if_neg hkey]
      · rw [Members.lookup_put, if_pos rfl]
        rfl
      · exact Members.ordered_put hordered _ _
  | none =>
      refine ⟨_, rfl, fun key hkey => ?_, ?_, fun hordered => ?_⟩
      · rw [Members.lookup_without, if_neg hkey]
      · rw [Members.lookup_without, if_pos rfl]
        rfl
      · exact Members.ordered_without hordered _

/-- A labelled payload carries the payload on. -/
theorem exists_withBranch (payload : Json) (choice : Option String) :
    ∃ members, withBranch payload choice = .object members ∧
      CarriesOn payload choice members := by
  obtain ⟨members, houtput, hothers, hbranch, hkeeps⟩ := exists_withBranch_eq_object payload choice
  refine ⟨members, houtput, ?_⟩
  constructor
  · rintro carried rfl
    exact hothers
  · rintro rfl
    exact hothers
  · intro hobject hnull key hkey
    rw [hothers key hkey, asMembers_of_other hobject hnull, Members.lookup_cons]
    rfl
  · exact hbranch
  · exact fun hordered => hkeeps (ordered_asMembers hordered)

/-- The choice can be read off the output. -/
theorem withBranch_injective {other : Option String}
    (hsame : withBranch payload choice = withBranch payload other) : choice = other := by
  obtain ⟨members, houtput, hcarries⟩ := exists_withBranch payload choice
  obtain ⟨others, hother, hcarriesOther⟩ := exists_withBranch payload other
  rw [houtput, hother] at hsame
  cases hsame
  have hbranch := hcarries.branch.symm.trans hcarriesOther.branch
  exact Option.map_injective (fun _ _ hstring => Json.string.inj hstring) hbranch

/-- A `branch` that is carried in leaves no trace in the output. -/
theorem withBranch_putBranch (members : Members) (stale : Json) (choice : Option String) :
    withBranch (.object (members.put branchField stale)) choice =
      withBranch (.object members) choice := by
  cases choice with
  | some label => simp only [withBranch, asMembers, Members.put_put]
  | none => simp only [withBranch, asMembers, Members.put_without]

/-- A choice leads to the label in the output, or else to that of the router. -/
theorem leadsTo_iff (payload : Json) {defaults : RouterDefaults} {node : Node} {kind : RouterKind}
    {label : String} :
    defaults.LeadsTo node kind choice label ↔
      label = (branchLabel (withBranch payload choice)).getD (defaults.label node kind) := by
  obtain ⟨members, houtput, -, hbranch, -⟩ := exists_withBranch_eq_object payload choice
  rw [houtput, branchLabel, Json.member?, hbranch]
  cases choice with
  | none =>
      constructor
      · rintro ⟨⟩
        next hfalls => exact RouterDefaults.fallsBackTo_iff.mp hfalls
      · exact fun hlabel => .none (RouterDefaults.fallsBackTo_iff.mpr hlabel)
  | some text =>
      rw [Option.map_some, Option.bind_some, branchLabelOf]
      by_cases htext : text = ""
      · subst htext
        constructor
        · rintro (hchosen | hfalls)
          · exact absurd rfl hchosen
          · exact RouterDefaults.fallsBackTo_iff.mp hfalls
        · exact fun hlabel => .empty (RouterDefaults.fallsBackTo_iff.mpr hlabel)
      · rw [if_neg (by simpa using htext), Option.getD_some]
        constructor
        · rintro (hchosen | hfalls)
          · rfl
          · exact absurd rfl htext
        · rintro rfl
          exact .chosen htext

end Builtin

end FlowGraph
