import FlowGraph.Proofs.Workflow.Declared

/-!
# The defects of a definition

A definition is defective where a node repeats the id of an earlier one, and where a
connection has an end that no node declares.  Both are said here of the lists of ids
and connections alone.  The search for repeats goes through the nodes once and keeps
the index at which each id came first, so however often an id is repeated, every
repeat is reported with the same first index.

Main results:

- Theorem `duplicatesFrom_eq`: the search reports every repeat with the least index of
  its id.
- Theorem `danglingEnds_eq`: every connection is reported with its undeclared ends.
- Theorem `violations_exact`: the violations of a definition are its defects in order,
  and a definition is accepted exactly when it has none.
-/

namespace FlowGraph.Definition

/-! ## Repeated ids -/

/-- What is wrong with an id at an index: it stands at an earlier one, first at the least
index that holds it. -/
def repeat? (ids : List String) (entry : String × Nat) : Option Violation :=
  let first := ids.idxOf entry.1
  if first < entry.2 then some (.duplicateId entry.1 first entry.2) else none

/-- A table leads from each id of a list to the least index that holds it. -/
def Indexes (seen : Std.HashMap String Nat) (ids : List String) : Prop :=
  ∀ id, seen[id]? = if id ∈ ids then some (ids.idxOf id) else none

variable {seen : Std.HashMap String Nat} {ids : List String} {id : String}

theorem indexes_empty : Indexes ∅ [] := by
  intro id
  simp

/-- One more occurrence of an id leaves its least index as it is. -/
theorem Indexes.append_known (h : Indexes seen ids) (hid : id ∈ ids) :
    Indexes seen (ids ++ [id]) := by
  intro other
  rw [h other]
  by_cases hother : other ∈ ids
  · rw [if_pos hother, if_pos (List.mem_append_left _ hother), List.idxOf_append_of_mem hother]
  · have hnew : other ∉ ids ++ [id] := by
      rw [List.mem_append, List.mem_singleton]
      rintro (hmem | rfl)
      · exact hother hmem
      · exact hother hid
    rw [if_neg hother, if_neg hnew]

/-- A new id comes first where the list ends. -/
theorem Indexes.append_new (h : Indexes seen ids) (hid : id ∉ ids) :
    Indexes (seen.insert id ids.length) (ids ++ [id]) := by
  intro other
  rw [Std.HashMap.getElem?_insert, h other]
  by_cases heq : id = other
  · subst heq
    rw [List.idxOf_append_of_notMem hid]
    simp
  · have hsame : other ∈ ids ++ [id] ↔ other ∈ ids := by
      simp [Ne.symm heq]
    by_cases hother : other ∈ ids
    · simp [heq, hother, List.idxOf_append_of_mem hother]
    · simp [heq, hother, hsame]

/-- The search reports every repeat with the least index of its id. -/
theorem duplicatesFrom_eq (h : Indexes seen ids) (nodes : List Node) :
    duplicatesFrom seen ids.length nodes =
      ((nodes.map Node.id).zipIdx ids.length).filterMap (repeat? (ids ++ nodes.map Node.id)) := by
  induction nodes generalizing seen ids with
  | nil => rfl
  | cons node rest ih =>
      have hlength : (ids ++ [node.id]).length = ids.length + 1 := List.length_append
      have hall : ids ++ (node :: rest).map Node.id =
          (ids ++ [node.id]) ++ rest.map Node.id := by
        rw [List.map_cons, List.append_assoc, List.singleton_append]
      rw [duplicatesFrom, h node.id, hall, List.map_cons, List.zipIdx_cons, List.filterMap_cons,
        ← hlength]
      by_cases hid : node.id ∈ ids
      · have hfirst : (ids ++ [node.id] ++ rest.map Node.id).idxOf node.id =
            ids.idxOf node.id := by
          rw [List.append_assoc, List.idxOf_append_of_mem hid]
        have hreport : repeat? (ids ++ [node.id] ++ rest.map Node.id) (node.id, ids.length) =
            some (.duplicateId node.id (ids.idxOf node.id) ids.length) := by
          rw [repeat?, hfirst, if_pos (List.idxOf_lt_length_of_mem hid)]
        rw [if_pos hid, hreport]
        exact congrArg _ (ih (h.append_known hid))
      · have hfirst : (ids ++ [node.id] ++ rest.map Node.id).idxOf node.id = ids.length := by
          rw [List.append_assoc, List.idxOf_append_of_notMem hid]
          simp
        have hsilent : repeat? (ids ++ [node.id] ++ rest.map Node.id) (node.id, ids.length) =
            none := by
          rw [repeat?, hfirst, if_neg (Nat.lt_irrefl _)]
        rw [if_neg hid, hsilent]
        exact ih (h.append_new hid)

/-- Every repeat is reported with the index at which its id came first. -/
example : ["a", "b", "a", "b", "a"].zipIdx.filterMap (repeat? ["a", "b", "a", "b", "a"]) =
    [.duplicateId "a" 0 2, .duplicateId "b" 1 3, .duplicateId "a" 0 4] := by
  decide

/-! ## Undeclared ends -/

/-- What is wrong with a connection at an index: some of its ends, the source before the
target, are not declared. -/
def undeclared? (ids : List String) (entry : Connection × Nat) : Option Violation :=
  let missing := [entry.1.source, entry.1.target].eraseDups.filter (· ∉ ids)
  if missing = [] then none
  else some (.reference entry.2 entry.1.source entry.1.target missing)

/-- The missing ends of a connection are those that are not declared, each once. -/
theorem missingEnds_eq {declared : String → Bool} (h : ∀ id, declared id = true ↔ id ∈ ids)
    (c : Connection) :
    missingEnds declared c = [c.source, c.target].eraseDups.filter (· ∉ ids) := by
  have hdeclared (id : String) : declared id = decide (id ∈ ids) := by
    rw [Bool.eq_iff_iff, h, decide_eq_true_iff]
  by_cases hself : c.target = c.source
  · by_cases hsource : c.source ∈ ids <;>
      simp [missingEnds, hdeclared, hself, hsource, List.eraseDups_cons]
  · by_cases hsource : c.source ∈ ids <;> by_cases htarget : c.target ∈ ids <;>
      simp [missingEnds, hdeclared, hself, hsource, htarget, List.eraseDups_cons]

/-- Every connection is reported with its undeclared ends. -/
theorem danglingEnds_eq (nodes : List Node) (connections : List Connection) :
    danglingEnds nodes connections =
      connections.zipIdx.filterMap (undeclared? (nodes.map Node.id)) := by
  have hdeclared : ∀ id, (declaredIds nodes).contains id = true ↔ id ∈ nodes.map Node.id :=
    fun id => by rw [contains_declaredIds_iff, List.mem_map]
  refine List.filterMap_congr fun entry _ => ?_
  rw [danglingEnd?, missingEnds_eq hdeclared, undeclared?]
  split
  next hnone => rw [hnone, if_pos rfl]
  next hsome => rw [if_neg hsome]

/-! ## All defects -/

/-- The violations of a definition are its repeated ids and then its undeclared ends, each
in the order of their indexes.  So a definition is accepted exactly when the ids are
distinct and every end is declared. -/
theorem violations_exact (d : Definition) :
    let ids := d.nodes.map Node.id
    d.violations =
        ids.zipIdx.filterMap (repeat? ids) ++ d.connections.zipIdx.filterMap (undeclared? ids) ∧
      ((∃ w, Workflow.ofDefinition d = .ok w) ↔
        ids.Nodup ∧ ∀ c ∈ d.connections, c.source ∈ ids ∧ c.target ∈ ids) := by
  intro ids
  constructor
  · rw [violations, danglingEnds_eq]
    exact congrArg (· ++ _) (duplicatesFrom_eq indexes_empty d.nodes)
  · rw [← violations_eq_nil_iff]
    constructor
    · rintro ⟨w, hw⟩
      exact Workflow.definition_of_ofDefinition hw ▸ w.sound
    · exact fun hsound => ⟨_, Workflow.ofDefinition_eq_ok hsound⟩

end FlowGraph.Definition
