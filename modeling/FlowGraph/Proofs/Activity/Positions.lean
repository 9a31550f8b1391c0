import FlowGraph.Activity.FieldPath
import FlowGraph.Proofs.Json.Schema
import FlowGraph.Proofs.Words
import Mathlib.Data.List.Forall2

/-!
# The positions that field paths lead to

A field path is a text, and a position is a row of steps into a value.  The segments of
a path name the steps of a position: a member is named by its key, and an item by its
index in decimal.  Which of the two a segment names depends on the value it is applied
to, so one path can lead to different positions in different values.

Main results:

- Theorem `index?_eq_some_iff`: which segments name an item.
- Theorem `resolve_eq_some_iff`: a path leads to what stands at a position that its
  segments name.
- Theorem `resolve_dotted`: the steps of a position, joined by dots, lead to it.
- Theorem `resolve_append`: a joined path leads from the end of the first path on.
-/

namespace FlowGraph

/-! ## Positions as texts -/

namespace Json

/-- The segment that a step is written as. -/
def Step.text : Step → String
  | .key name => name
  | .index i => toString i

/-- The steps of a position, joined by dots. -/
def Path.dotted (position : Path) : String := ".".intercalate (position.map Step.text)

/-- The step can be a segment of a path: no dot stands in a key, and an index is a 64-bit
word. -/
def Step.Addressable : Step → Prop
  | .key name => '.' ∉ name.toList
  | .index i => i < UInt64.size

instance : DecidablePred Step.Addressable
  | .key name => inferInstanceAs (Decidable ('.' ∉ name.toList))
  | .index i => inferInstanceAs (Decidable (i < UInt64.size))

/-- A value inside a value is found step by step. -/
theorem at?_cons (step : Step) (rest : Path) (v : Json) :
    at? (step :: rest) (some v) = (at? [step] (some v)).bind fun w => at? rest (some w) := by
  cases step with
  | key name =>
      cases v with
      | object ms =>
          simp only [at?]
          cases ms.lookup name with
          | none => exact at?_none rest
          | some w => rfl
      | _ => rfl
  | index i =>
      cases v with
      | array items =>
          simp only [at?]
          cases items[i]? with
          | none => exact at?_none rest
          | some w => rfl
      | _ => rfl

end Json

namespace FieldPath

open Json (Step Path at? at?_cons exists_array_of_at? exists_object_of_at?)

/-! ## Segments -/

/-- The segment reads as an unsigned decimal number: digits after an optional plus. -/
def ReadsAs (segment : List Char) (n : Nat) : Prop :=
  ∃ digits, (segment = digits ∨ segment = '+' :: digits) ∧ digits ≠ [] ∧
    (∀ c ∈ digits, c.isDigit = true) ∧ Nat.ofDigitChars 10 digits 0 = n

/-- The segment names the step. -/
def Names (segment : List Char) : Step → Prop
  | .key name => segment = name.toList
  | .index i => ReadsAs segment i ∧ i < UInt64.size

/-- The pieces of a path between its dots; the empty path has none. -/
def pieces (path : String) : List (List Char) :=
  if path = "" then [] else path.toList.splitOn '.'

/-- The value of a row of characters is defined for digits, and is their value in base ten. -/
theorem decimal?_eq_some_iff {digits : List Char} {n : Nat} :
    decimal? digits = some n ↔
      digits ≠ [] ∧ (∀ c ∈ digits, c.isDigit = true) ∧ Nat.ofDigitChars 10 digits 0 = n := by
  have hvalue : digits.foldl (fun n c => n * 10 + (c.toNat - '0'.toNat)) 0 =
      Nat.ofDigitChars 10 digits 0 := by
    simp only [Nat.ofDigitChars_eq_foldl, Nat.mul_comm]
  rw [decimal?, hvalue]
  by_cases hdigits : digits ≠ [] ∧ ∀ c ∈ digits, c.isDigit = true
  · rw [if_neg (by simpa using hdigits), Option.some.injEq]
    constructor
    · intro hn
      exact ⟨hdigits.1, hdigits.2, hn⟩
    · intro hn
      exact hn.2.2
  · rw [if_pos (by simpa [or_iff_not_imp_left] using hdigits)]
    constructor
    · intro hn
      contradiction
    · rintro ⟨hne, hall, -⟩
      exact absurd ⟨hne, hall⟩ hdigits

/-- After a plus, the rest is read as digits. -/
theorem readsAs_plus {digits : List Char} {n : Nat} :
    ReadsAs ('+' :: digits) n ↔ decimal? digits = some n := by
  rw [decimal?_eq_some_iff]
  constructor
  · rintro ⟨others, rfl | hplus, hne, hall, hn⟩
    · have hplus := hall '+' List.mem_cons_self
      contradiction
    · obtain ⟨-, rfl⟩ := List.cons.inj hplus
      exact ⟨hne, hall, hn⟩
  · intro hdigits
    exact ⟨digits, .inr rfl, hdigits⟩

/-- Without a plus, the segment is read as digits. -/
theorem readsAs_of_no_plus {segment : List Char} {n : Nat}
    (hplus : ∀ digits, segment ≠ '+' :: digits) :
    ReadsAs segment n ↔ decimal? segment = some n := by
  rw [decimal?_eq_some_iff]
  constructor
  · rintro ⟨digits, rfl | hsegment, hdigits⟩
    · exact hdigits
    · exact absurd hsegment (hplus digits)
  · intro hdigits
    exact ⟨segment, .inl rfl, hdigits⟩

/-- A segment names the item whose index it reads as. -/
theorem index?_eq_some_iff {segment : List Char} {i : Nat} :
    index? segment = some i ↔ ReadsAs segment i ∧ i < UInt64.size := by
  have hword (digits : List Char) :
      ((decimal? digits).bind fun n => if n < UInt64.size then some n else none) = some i ↔
        decimal? digits = some i ∧ i < UInt64.size := by
    simp [Option.bind_eq_some_iff, Option.ite_none_right_eq_some]
  unfold index?
  split
  · next digits =>
    rw [readsAs_plus]
    exact hword digits
  · next hplus =>
    rw [readsAs_of_no_plus hplus]
    exact hword segment

/-! ## What a path leads to -/

/-- A segment leads to what stands at a step that it names. -/
theorem step_eq_some_iff {v w : Json} {segment : List Char} :
    FieldPath.step v segment = some w ↔
      ∃ step, Names segment step ∧ at? [step] (some v) = some w := by
  constructor
  · intro hstep
    cases v with
    | object ms =>
        exact ⟨.key (String.ofList segment), String.toList_ofList.symm, hstep⟩
    | array items =>
        obtain ⟨i, hi, hitem⟩ := Option.bind_eq_some_iff.mp hstep
        exact ⟨.index i, index?_eq_some_iff.mp hi, hitem⟩
    | _ => contradiction
  · rintro ⟨step, hname, hat⟩
    cases step with
    | key name =>
        obtain ⟨ms, hv, hmember⟩ := exists_object_of_at? hat
        obtain rfl := Option.some.inj hv
        rw [FieldPath.step, hname, String.ofList_toList]
        exact hmember
    | index i =>
        obtain ⟨items, u, hv, hitem, hu⟩ := exists_array_of_at? hat
        obtain rfl := Option.some.inj hv
        rw [FieldPath.step, index?_eq_some_iff.mpr hname]
        exact hitem.trans hu

/-- Segments lead to what stands at a position whose steps they name. -/
theorem foldlM_step_eq_some_iff {segments : List (List Char)} {v w : Json} :
    segments.foldlM FieldPath.step v = some w ↔
      ∃ position, List.Forall₂ Names segments position ∧ at? position (some v) = some w := by
  induction segments generalizing v with
  | nil =>
      rw [List.foldlM_nil]
      constructor
      · intro hend
        exact ⟨[], .nil, hend⟩
      · rintro ⟨_, hnames, hat⟩
        cases hnames
        exact hat
  | cons segment rest ih =>
      rw [List.foldlM_cons, Option.bind_eq_bind, Option.bind_eq_some_iff]
      constructor
      · rintro ⟨u, hstep, hrest⟩
        obtain ⟨step, hname, hu⟩ := step_eq_some_iff.mp hstep
        obtain ⟨position, hnames, hat⟩ := ih.mp hrest
        refine ⟨step :: position, .cons hname hnames, ?_⟩
        rw [at?_cons, hu]
        exact hat
      · rintro ⟨_, hnames, hat⟩
        cases hnames with
        | @cons _ step _ position hname hnames =>
            rw [at?_cons, Option.bind_eq_some_iff] at hat
            obtain ⟨u, hu, hat⟩ := hat
            exact ⟨u, step_eq_some_iff.mpr ⟨step, hname, hu⟩, ih.mpr ⟨position, hnames, hat⟩⟩

/-- The segments of a path are its pieces between dots. -/
theorem segments_eq (path : String) : segments path = path.toList.splitOn '.' := by
  rw [segments, Text.split_eq_splitOnP, List.splitOn_eq_splitOnP]
  rfl

/-- A path leads to what stands at a position that its pieces name. -/
theorem resolve_eq_some_iff {v w : Json} {path : String} :
    resolve v path = some w ↔
      ∃ position, List.Forall₂ Names (pieces path) position ∧ at? position (some v) = some w := by
  rw [← foldlM_step_eq_some_iff, resolve, pieces, segments_eq]
  -- Cut at its dots, the empty path would be one empty segment; it is tested for first.
  by_cases hpath : path = ""
  · subst hpath
    rfl
  · rw [if_neg (by simpa using hpath), if_neg hpath]

/-- A step that can be a segment is named by its text, in which no dot stands. -/
theorem names_text {step : Step} (h : step.Addressable) :
    Names step.text.toList step ∧ '.' ∉ step.text.toList := by
  cases step with
  | key name => exact ⟨rfl, h⟩
  | index i =>
      have htext : (Step.index i).text.toList = Nat.toDigits 10 i := by
        rw [Step.text, Nat.toString_eq_ofList_toDigits, String.toList_ofList]
      have hdigits : ∀ c ∈ Nat.toDigits 10 i, c.isDigit = true := by
        intro c hc
        exact Nat.isDigit_of_mem_toDigits (by decide) (by decide) hc
      rw [htext]
      constructor
      · exact ⟨⟨_, .inl rfl, Nat.toDigits_ne_nil, hdigits, Nat.ofDigitChars_ten_toDigits⟩, h⟩
      · intro hdot
        have := hdigits '.' hdot
        contradiction

/-- The pieces of a written position are the texts of its steps. -/
theorem pieces_dotted {position : Path} (hsteps : ∀ step ∈ position, step.Addressable)
    (hpath : position.dotted ≠ "") :
    pieces position.dotted = position.map fun step => step.text.toList := by
  have hposition : position ≠ [] := by
    rintro rfl
    exact hpath rfl
  have hdots : ∀ piece ∈ position.map fun step => step.text.toList, '.' ∉ piece := by
    intro piece hpiece
    obtain ⟨step, hstep, rfl⟩ := List.mem_map.mp hpiece
    exact (names_text (hsteps step hstep)).2
  rw [pieces, if_neg hpath, Path.dotted, String.toList_intercalate, List.map_map]
  exact List.splitOn_intercalate '.' hdots (by simpa using hposition)

/-- The steps of a position, joined by dots, lead to it. -/
theorem resolve_dotted {v w : Json} {position : Path} (hat : at? position (some v) = some w)
    (hsteps : ∀ step ∈ position, step.Addressable) (hpath : position.dotted ≠ "") :
    resolve v position.dotted = some w := by
  refine resolve_eq_some_iff.mpr ⟨position, ?_, hat⟩
  rw [pieces_dotted hsteps hpath, List.forall₂_map_left_iff, List.forall₂_same]
  intro step hstep
  exact (names_text (hsteps step hstep)).1

/-- A joined path leads from the end of the first path on. -/
theorem resolve_append (v : Json) {p q : String} (hp : p ≠ "") (hq : q ≠ "") :
    resolve v (p ++ "." ++ q) = (resolve v p).bind fun w => resolve w q := by
  have hpath : p ++ "." ++ q ≠ "" := by simp
  have hsplit : (p ++ "." ++ q).toList.splitOn '.' =
      p.toList.splitOn '.' ++ q.toList.splitOn '.' := by
    rw [← Text.splitOn_append_cons]
    simp
  simp only [resolve, segments_eq, hsplit, List.foldlM_append, String.isEmpty_iff, hp, hq, hpath,
    if_false, Option.bind_eq_bind]

/-- Field paths address exactly the values inside a value.  A position that can be written
as a path is what its path leads to; a path leads to what stands at a position that its
pieces name, and nowhere else; and a joined path leads on from where its first part ends. -/
theorem resolve_addresses :
    (∀ v w position, at? position (some v) = some w →
      (∀ step ∈ position, step.Addressable) → position.dotted ≠ "" →
      resolve v position.dotted = some w) ∧
    (∀ v w path, resolve v path = some w ↔
      ∃ position, List.Forall₂ Names (pieces path) position ∧ at? position (some v) = some w) ∧
    (∀ v p q, p ≠ "" → q ≠ "" →
      resolve v (p ++ "." ++ q) = (resolve v p).bind fun w => resolve w q) := by
  refine ⟨?_, ?_, resolve_append⟩
  · intro v w position hat hsteps hpath
    exact resolve_dotted hat hsteps hpath
  · intro v w path
    exact resolve_eq_some_iff

/-- The first `1` of a path is an index of a list and the second one a key, and a sign and
a zero before the index lead to the same address. -/
theorem resolve_addresses_mailbox :
    let mailbox : Json := .array [.string "a@x", .object [("1", .string "b@x")]]
    let payload : Json := .object [("mail", mailbox)]
    let position : Path := [.key "mail", .index 1, .key "1"]
    at? position (some payload) = some (.string "b@x") ∧
      resolve payload "mail.1.1" = some (.string "b@x") ∧
      resolve payload "mail.+01.1" = some (.string "b@x") ∧
      resolve mailbox "1.1" = some (.string "b@x") := by
  intro mailbox payload position
  obtain ⟨hdotted, hnamed, hjoined⟩ := resolve_addresses
  have hat : at? position (some payload) = some (.string "b@x") := rfl
  have hindex : ReadsAs ['+', '0', '1'] 1 :=
    ⟨['0', '1'], .inr rfl, by decide, List.all_eq_true.mp rfl, rfl⟩
  have hpieces : pieces "mail.+01.1" = [['m', 'a', 'i', 'l'], ['+', '0', '1'], ['1']] := by
    decide +kernel
  have hnames : List.Forall₂ Names (pieces "mail.+01.1") position := by
    rw [hpieces]
    exact .cons rfl (.cons ⟨hindex, by decide⟩ (.cons rfl .nil))
  have hwritten : resolve payload "mail.1.1" = some (.string "b@x") :=
    hdotted payload _ position hat (by decide +kernel) (by decide +kernel)
  refine ⟨hat, hwritten, (hnamed payload _ _).mpr ⟨position, hnames, hat⟩, ?_⟩
  have hmail : resolve payload "mail" = some mailbox := by
    refine (hnamed payload mailbox "mail").mpr ⟨[.key "mail"], ?_, rfl⟩
    rw [show pieces "mail" = [['m', 'a', 'i', 'l']] by decide +kernel]
    exact .cons rfl .nil
  have hparts := hjoined payload "mail" "1.1" (by decide) (by decide)
  rw [hmail] at hparts
  exact hparts.symm.trans hwritten

end FieldPath

end FlowGraph
