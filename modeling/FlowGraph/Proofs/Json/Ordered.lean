import FlowGraph.Json.Parser
import FlowGraph.Proofs.Lookup

/-!
# Values with ordered members

A value is ordered when every object inside it, at any depth, lists its members
in the order of their names, each name once.  Such a list of members is what
writing its own pairs in turn gives, and a look-up finds exactly the members it
holds.

Main results:

- Theorem `Members.ofList_eq_self`: ordered members are read back from their
  own pairs.
- Theorem `Members.lookup_eq_some_iff`: a look-up in ordered members finds
  exactly what they hold.
- Theorem `Json.ordered_of_parse`: every value read from a text is ordered.
-/

namespace FlowGraph

/-! ## Ordered members -/

namespace Members

instance (members : Members) : Decidable members.Ordered :=
  inferInstanceAs (Decidable (List.Pairwise _ members))

theorem put_eq_append {members : Members} {key : String} (value : Json)
    (hbelow : ∀ m ∈ members, m.1 < key) : members.put key value = members ++ [(key, value)] := by
  induction members with
  | nil => rfl
  | cons m rest ih =>
      obtain ⟨k, v⟩ := m
      have hk : k < key := hbelow (k, v) List.mem_cons_self
      have hne : key ≠ k := by
        rintro rfl
        exact String.lt_irrefl _ hk
      have hnot : ¬ key < k := fun h => String.lt_irrefl _ (String.lt_trans hk h)
      rw [put, if_neg hne, if_neg hnot, ih fun m hm => hbelow m (List.mem_cons_of_mem _ hm)]
      rfl

theorem putAll_eq_append {members written : Members} (h : (members ++ written).Ordered) :
    members.putAll written = members ++ written := by
  induction written generalizing members with
  | nil => simp [putAll]
  | cons m rest ih =>
      have hbelow : ∀ a ∈ members, a.1 < m.1 := fun a ha =>
        (List.pairwise_append.mp h).2.2 a ha m List.mem_cons_self
      have hput : members.put m.1 m.2 = members ++ [m] := put_eq_append m.2 hbelow
      have hrest : ((members ++ [m]) ++ rest).Ordered := by simpa using h
      calc members.putAll (m :: rest)
          = (members.put m.1 m.2).putAll rest := rfl
        _ = members ++ m :: rest := by rw [hput, ih hrest, List.append_assoc]; rfl

/-- Ordered members are what writing them in turn gives. -/
theorem ofList_eq_self {members : Members} (h : members.Ordered) : ofList members = members :=
  putAll_eq_append (by simpa using h)

theorem ordered_putAll {members : Members} (h : members.Ordered) (written : Members) :
    (members.putAll written).Ordered := by
  induction written generalizing members with
  | nil => exact h
  | cons m rest ih => exact ih (ordered_put h m.1 m.2)

theorem mem_putAll {members written : Members} {m : String × Json}
    (h : m ∈ members.putAll written) : m ∈ members ∨ m ∈ written := by
  induction written generalizing members with
  | nil => exact .inl h
  | cons w rest ih =>
      rcases ih h with hm | hm
      · rcases mem_put hm with rfl | hm
        · exact .inr List.mem_cons_self
        · exact .inl hm
      · exact .inr (List.mem_cons_of_mem _ hm)

/-- Pairs with distinct names, written in turn, are found by their names. -/
theorem lookup_putAll {written : Members} (hnames : (written.map Prod.fst).Nodup)
    (members : Members) (name : String) :
    (members.putAll written).lookup name = (written.lookup name).or (members.lookup name) := by
  induction written generalizing members with
  | nil => rfl
  | cons m rest ih =>
      obtain ⟨key, value⟩ := m
      obtain ⟨hnew, hrest⟩ := List.nodup_cons.mp hnames
      rw [show members.putAll ((key, value) :: rest) = (members.put key value).putAll rest from rfl,
        ih hrest, lookup_put, lookup_cons]
      split
      next heq =>
        subst heq
        rw [lookup_eq_none_of_not_mem hnew, Option.none_or, Option.some_or]
      next => rfl

/-- An object written from pairs with distinct names holds each of them. -/
theorem lookup_ofList {pairs : Members} (hnames : (pairs.map Prod.fst).Nodup) (name : String) :
    (ofList pairs).lookup name = pairs.lookup name := by
  rw [ofList, lookup_putAll hnames]
  exact Option.or_none

/-- Ordered members have distinct names. -/
theorem nodup_names_of_ordered {members : Members} (h : members.Ordered) :
    (members.map Prod.fst).Nodup := by
  refine List.pairwise_map.mpr (List.Pairwise.imp ?_ h)
  intro m m' hlt heq
  exact String.lt_irrefl _ (heq ▸ hlt)

/-- A look-up in ordered members finds exactly what they hold. -/
theorem lookup_eq_some_iff {members : Members} (h : members.Ordered) {name : String}
    {v : Json} : members.lookup name = some v ↔ (name, v) ∈ members :=
  lookup_eq_some_iff_of_nodup (nodup_names_of_ordered h)

end Members

/-! ## Ordered values -/

namespace Json

mutual

/-- Every object inside the value has ordered members. -/
def Ordered : Json → Prop
  | .array items => OrderedItems items
  | .object members => Members.Ordered members ∧ OrderedMembers members
  | _ => True

/-- Every item is ordered. -/
def OrderedItems : List Json → Prop
  | [] => True
  | v :: rest => v.Ordered ∧ OrderedItems rest

/-- The value of every member is ordered. -/
def OrderedMembers : List (String × Json) → Prop
  | [] => True
  | (_, v) :: rest => v.Ordered ∧ OrderedMembers rest

end

theorem orderedItems_iff {items : List Json} : OrderedItems items ↔ ∀ v ∈ items, v.Ordered := by
  induction items with
  | nil => simp [OrderedItems]
  | cons v rest ih => simp [OrderedItems, ih]

theorem orderedMembers_iff {members : Members} :
    OrderedMembers members ↔ ∀ m ∈ members, m.2.Ordered := by
  induction members with
  | nil => simp [OrderedMembers]
  | cons m rest ih => simp [OrderedMembers, ih]

@[simp]
theorem ordered_array {items : List Json} :
    (Json.array items).Ordered ↔ ∀ v ∈ items, v.Ordered := by
  rw [Ordered, orderedItems_iff]

@[simp]
theorem ordered_object {members : Members} :
    (Json.object members).Ordered ↔ members.Ordered ∧ ∀ m ∈ members, m.2.Ordered := by
  rw [Ordered, orderedMembers_iff]

mutual

/-- Whether a value is ordered. -/
def decideOrdered : (v : Json) → Decidable v.Ordered
  | .null => .isTrue trivial
  | .bool _ => .isTrue trivial
  | .number _ => .isTrue trivial
  | .string _ => .isTrue trivial
  | .array items => decideOrderedItems items
  | .object members =>
    have := decideOrderedMembers members
    inferInstanceAs (Decidable (Members.Ordered members ∧ OrderedMembers members))

/-- Whether every item is ordered. -/
def decideOrderedItems : (items : List Json) → Decidable (OrderedItems items)
  | [] => .isTrue trivial
  | v :: rest =>
    have := decideOrdered v
    have := decideOrderedItems rest
    inferInstanceAs (Decidable (v.Ordered ∧ OrderedItems rest))

/-- Whether the value of every member is ordered. -/
def decideOrderedMembers : (members : List (String × Json)) → Decidable (OrderedMembers members)
  | [] => .isTrue trivial
  | (_, v) :: rest =>
    have := decideOrdered v
    have := decideOrderedMembers rest
    inferInstanceAs (Decidable (v.Ordered ∧ OrderedMembers rest))

end

instance : DecidablePred Ordered := decideOrdered

/-- An object written from ordered values is ordered, whatever the order of the pairs. -/
theorem ordered_ofPairs {pairs : List (String × Json)} (h : ∀ m ∈ pairs, m.2.Ordered) :
    (Json.ofPairs pairs).Ordered := by
  refine ordered_object.mpr ⟨Members.ordered_putAll List.Pairwise.nil pairs, fun m hm => ?_⟩
  exact h m ((Members.mem_putAll hm).resolve_left List.not_mem_nil)

end Json

/-! ## Reading a text -/

/-- The value that a token holds, if any, is ordered. -/
def JsonToken.Ordered (t : JsonToken) : Prop := ∀ v, t = .scalar v → v.Ordered

namespace JsonToken

theorem ordered_ofScalar {c : Cursor} {read : Except JsonBreak (Json × Cursor)}
    (h : ∀ v after, read = .ok (v, after) → v.Ordered) : (ofScalar c read).1.Ordered := by
  rintro v hv
  match read with
  | .ok (w, after) =>
      obtain rfl : w = v := by simpa [ofScalar] using hv
      exact h w after rfl
  | .error b => simp [ofScalar] at hv

theorem ordered_ofWord {c : Cursor} {word : String} {v : Json} (h : v.Ordered) :
    (ofWord c word v).1.Ordered := by
  refine ordered_ofScalar fun w after hw => ?_
  cases hread : c.word word.toList <;> simp_all [Except.map]

theorem ordered_first (cursor : Cursor) (c : Char) (rest : List Char) :
    (first cursor c rest).1.Ordered := by
  have hword : ∀ word v, v.Ordered → (ofWord cursor word v).1.Ordered := fun _ _ =>
    ordered_ofWord
  unfold first
  split
  case h_7 =>
    dsimp only
    split <;> simp [Ordered]
  case h_8 => exact hword _ _ trivial
  case h_9 => exact hword _ _ trivial
  case h_10 => exact hword _ _ trivial
  case h_11 =>
    split
    · refine ordered_ofScalar fun w after hw => ?_
      cases hread : cursor.number with
      | error b => simp [hread, Except.map] at hw
      | ok found =>
          obtain ⟨rfl, -⟩ : Json.number found.1 = w ∧ _ := by simpa [hread, Except.map] using hw
          trivial
    · simp [Ordered]
  all_goals simp [Ordered]

theorem ordered_scanFrom {fuel : Nat} {read : List PlacedToken} {c : Cursor}
    (h : ∀ t ∈ read, t.token.Ordered) : ∀ t ∈ scanFrom fuel read c, t.token.Ordered := by
  induction fuel generalizing read c with
  | zero => simpa [scanFrom] using h
  | succ fuel ih =>
      rw [scanFrom.eq_def]
      split
      · simpa using h
      · simpa using h
      next fuel' next rest heq _ =>
        obtain rfl : fuel = fuel' := Nat.succ.inj heq
        have hread : ∀ t ∈ (⟨(first c next rest).1, c.offset⟩ : PlacedToken) :: read,
            t.token.Ordered := List.forall_mem_cons.mpr ⟨ordered_first c next rest, h⟩
        split
        · exact ih h
        · dsimp only
          split
          · exact fun t ht => hread t (List.mem_reverse.mp ht)
          · exact ih hread

end JsonToken

namespace Json

/-- Everything read inside an open frame is ordered. -/
def Frame.Ordered : Frame → Prop
  | .array items => ∀ v ∈ items, v.Ordered
  | .object members _ => ∀ m ∈ members, m.2.Ordered

/-- Everything read so far is ordered. -/
structure Reading.Ordered (r : Reading) : Prop where
  frames : ∀ f ∈ r.frames, f.Ordered
  done : ∀ v, r.expectation = .done v → v.Ordered

namespace Reading

theorem ordered_place {frames : List Frame} {v : Json} (hframes : ∀ f ∈ frames, f.Ordered)
    (hv : v.Ordered) : (place frames v).Ordered := by
  match frames, hframes with
  | [], _ => exact ⟨by simp [place], by simp [place, hv]⟩
  | .array items :: rest, hframes =>
      obtain ⟨hitems, hrest⟩ := List.forall_mem_cons.mp hframes
      refine ⟨List.forall_mem_cons.mpr ⟨?_, hrest⟩, by simp [place]⟩
      exact List.forall_mem_cons.mpr ⟨hv, hitems⟩
  | .object members key :: rest, hframes =>
      obtain ⟨hmembers, hrest⟩ := List.forall_mem_cons.mp hframes
      refine ⟨List.forall_mem_cons.mpr ⟨?_, hrest⟩, by simp [place]⟩
      exact List.forall_mem_cons.mpr ⟨hv, hmembers⟩

theorem ordered_enter {frames : List Frame} {t : PlacedToken} {frame : Frame}
    {expectation : Expectation} {r : Reading} (hframes : ∀ f ∈ frames, f.Ordered)
    (hframe : frame.Ordered) (hopen : ∀ v, expectation ≠ .done v)
    (h : enter frames t frame expectation = .ok r) : r.Ordered := by
  rw [enter] at h
  split at h
  · cases h
    exact ⟨List.forall_mem_cons.mpr ⟨hframe, hframes⟩, fun v hv => absurd hv (hopen v)⟩
  · cases h

theorem ordered_startValue {frames : List Frame} {t : PlacedToken} {r : Reading}
    (hframes : ∀ f ∈ frames, f.Ordered) (ht : t.token.Ordered)
    (h : startValue frames t = .ok r) : r.Ordered := by
  unfold startValue at h
  split at h
  next v hv => cases h; exact ordered_place hframes (ht v hv)
  next s _ => cases h; exact ordered_place hframes trivial
  next => exact ordered_enter hframes (by simp [Frame.Ordered]) (by simp) h
  next => exact ordered_enter hframes (by simp [Frame.Ordered]) (by simp) h
  all_goals cases h

theorem ordered_startKey {frames : List Frame} {t : PlacedToken} {r : Reading}
    (hframes : ∀ f ∈ frames, f.Ordered) (h : startKey frames t = .ok r) : r.Ordered := by
  unfold startKey at h
  split at h
  · cases h
    obtain ⟨hmembers, hrest⟩ := List.forall_mem_cons.mp hframes
    exact ⟨List.forall_mem_cons.mpr ⟨hmembers, hrest⟩, by simp⟩
  all_goals cases h

theorem ordered_separate {frames : List Frame} {t : PlacedToken} {r : Reading}
    (hframes : ∀ f ∈ frames, f.Ordered) (h : separate frames t = .ok r) : r.Ordered := by
  unfold separate at h
  split at h
  · cases h; exact ⟨hframes, by simp⟩
  · cases h; exact ⟨hframes, by simp⟩
  · cases h
    obtain ⟨hitems, hrest⟩ := List.forall_mem_cons.mp hframes
    exact ordered_place hrest (ordered_array.mpr fun v hv => hitems v (List.mem_reverse.mp hv))
  · cases h
    obtain ⟨hmembers, hrest⟩ := List.forall_mem_cons.mp hframes
    exact ordered_place hrest (ordered_ofPairs fun m hm => hmembers m (List.mem_reverse.mp hm))
  all_goals cases h

theorem ordered_step {r r' : Reading} {t : PlacedToken} (hr : r.Ordered)
    (ht : t.token.Ordered) (h : step r t = .ok r') : r'.Ordered := by
  unfold step at h
  split at h
  all_goals first
    | exact ordered_startValue hr.frames ht h
    | exact ordered_separate hr.frames h
    | exact ordered_startKey hr.frames h
    | (cases h; done)
    | (cases h; exact ⟨hr.frames, by simp⟩)

theorem ordered_steps {tokens : List PlacedToken} {r r' : Reading} (hr : r.Ordered)
    (htokens : ∀ t ∈ tokens, t.token.Ordered) (h : tokens.foldlM step r = .ok r') :
    r'.Ordered := by
  induction tokens generalizing r with
  | nil => cases h; exact hr
  | cons t rest ih =>
      obtain ⟨ht, hrest⟩ := List.forall_mem_cons.mp htokens
      rw [List.foldlM_cons] at h
      cases hstep : step r t with
      | error b => rw [hstep] at h; cases h
      | ok next =>
          rw [hstep] at h
          exact ih (ordered_step hr ht hstep) hrest h

end Reading

/-- Every value read from a text is ordered. -/
theorem ordered_of_parse {text : String} {v : Json} (h : parse text = .ok v) : v.Ordered := by
  have htokens : ∀ t ∈ JsonToken.scan text, t.token.Ordered :=
    JsonToken.ordered_scanFrom (by simp)
  have hinitial : Reading.initial.Ordered := ⟨by simp [Reading.initial], by simp [Reading.initial]⟩
  have hread : ofTokens text.utf8ByteSize (JsonToken.scan text) = .ok v := by
    unfold parse at h
    split at h
    next w hw => cases h; exact hw
    next => cases h
  rw [ofTokens] at hread
  cases hfold : (JsonToken.scan text).foldlM Reading.step Reading.initial with
  | error b => rw [hfold] at hread; cases hread
  | ok r =>
      rw [hfold] at hread
      have hr := Reading.ordered_steps hinitial htokens hfold
      simp only [bind, Except.bind] at hread
      split at hread
      next w hw => cases hread; exact hr.done _ hw
      next => cases hread

end Json

end FlowGraph
