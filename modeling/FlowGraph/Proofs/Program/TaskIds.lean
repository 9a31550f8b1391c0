import FlowGraph.Proofs.Program.FunctionNames
import FlowGraph.Proofs.Program.TaskGraph

/-!
# The ids of tasks

The task of a node is named after the id of the node, which may be any text.  Every
character that may not stand in a task id becomes an underscore, so that different
nodes may ask for the same id, and a numbered id may be the one that a later node
asks for.  This module shows that the ids are well formed and told apart however
many of them clash, and that no node changes the ids of the nodes before it.

Main results:

- Theorem `isTaskId_taskId`: the id that a node asks for is well formed.
- Theorem `IsTaskId.candidate`: so are its numbered forms.
- Theorem `taskIds_name_nodes`: every node of a workflow has an id of its own, found
  among the ids of the nodes before it.
-/

namespace FlowGraph.Program.Airflow

/-! ## Well-formed ids -/

/-- A task id: ASCII letters, digits, underscores, dots and hyphens, at least one of
them. -/
def IsTaskId (id : String) : Prop :=
  id ≠ "" ∧ ∀ c ∈ id.toList, c.isAlphanum = true ∨ c = '_' ∨ c = '.' ∨ c = '-'

/-- The id that a node asks for is well formed. -/
theorem isTaskId_taskId (nodeId : String) : IsTaskId (taskId nodeId) := by
  have hchars : ∀ c ∈ nodeId.toList.map fun c => if isTaskChar c then c else '_',
      c.isAlphanum = true ∨ c = '_' ∨ c = '.' ∨ c = '-' := by
    intro c hc
    obtain ⟨d, -, rfl⟩ := List.mem_map.mp hc
    split
    · rename_i hallowed
      simpa [isTaskChar, isNameChar, or_assoc] using hallowed
    · exact .inr (.inl rfl)
  unfold taskId
  split
  · have hletters : "node".toList.all Char.isAlphanum = true := rfl
    exact ⟨by decide, fun c hc => .inl (List.all_eq_true.mp hletters c hc)⟩
  · rename_i hne
    refine ⟨fun hempty => hne ?_, by simpa using hchars⟩
    simpa using congrArg String.toList hempty

/-- A numbered task id is a task id. -/
theorem IsTaskId.candidate {base : String} (h : IsTaskId base) (number : Nat) :
    IsTaskId (Program.candidate base number) := by
  obtain ⟨hne, hchars⟩ := h
  obtain ⟨tail, htail, hnumbers⟩ := exists_toList_candidate base number
  constructor
  · rintro hempty
    rw [hempty] at htail
    exact hne (String.toList_eq_nil_iff.mp (List.append_eq_nil_iff.mp htail.symm).1)
  · rw [htail]
    refine List.forall_mem_append.mpr ⟨hchars, fun c hc => ?_⟩
    rcases hnumbers c hc with hunderscore | hdigit
    · exact .inr (.inl hunderscore)
    · exact .inl (by rw [isAlphanum_eq, hdigit, Bool.or_true])

/-! ## The ids of a workflow -/

/-- Task ids for nodes: every node is given a well-formed id, and different nodes
are given different ids. -/
structure NamesNodes (nodes : List Node) (ids : List (String × String)) : Prop where
  /-- The ids are given in node order. -/
  keys : ids.map Prod.fst = nodes.map Node.id
  named : ∀ node ∈ nodes, ∃ id, ids.lookup node.id = some id ∧ IsTaskId id
  distinct : ∀ a ∈ nodes, ∀ b ∈ nodes, ids.lookup a.id = ids.lookup b.id → a = b
  /-- The search for an id ends at the first candidate that no earlier node has. -/
  firstFree : ∀ before entry after, ids = before ++ entry :: after →
    ∃ k, 1 ≤ k ∧ k ≤ before.length + 1 ∧ entry.2 = candidate (taskId entry.1) k ∧
      entry.2 ∉ before.map Prod.snd ∧
      ∀ j, 1 ≤ j → j < k → candidate (taskId entry.1) j ∈ before.map Prod.snd

section

variable {keys : List String}

/-- Every id that is given is well formed. -/
theorem isTaskId_of_mem_assign {entry : String × String} (h : entry ∈ assign taskId keys) :
    IsTaskId entry.2 := by
  obtain ⟨before, after, hsplit⟩ := List.append_of_mem h
  obtain ⟨k, -, -, hname, -⟩ := firstFree_of_assign_eq taskId hsplit
  rw [hname]
  exact (isTaskId_taskId entry.1).candidate k

/-- The id of one of the first keys is found among the ids of these keys. -/
theorem lookup_assign_take {key : String} {k : Nat} (h : key ∈ keys.take k) :
    (assign taskId keys).lookup key = (assign taskId (keys.take k)).lookup key := by
  obtain ⟨name, hname⟩ := exists_lookup_assign taskId h
  rw [hname, ← List.take_append_drop k (assign taskId keys), List.lookup_append,
    take_assign, hname, Option.some_or]

end

variable (w : Workflow) (defaults : RouterDefaults)

/-- The nodes of a workflow are named. -/
theorem namesNodes_taskIds : NamesNodes w.nodes (taskIds (.ofWorkflow w defaults)) := by
  rw [taskIds_ofWorkflow]
  refine {
    keys := map_fst_assign taskId _
    named := ?_
    distinct := ?_
    firstFree := fun before entry after h => firstFree_of_assign_eq taskId h }
  · intro node hnode
    obtain ⟨id, hid⟩ := exists_lookup_assign taskId (List.mem_map_of_mem (f := Node.id) hnode)
    exact ⟨id, hid, isTaskId_of_mem_assign (mem_of_lookup_eq_some hid)⟩
  · intro a ha b hb hsame
    obtain ⟨id, hid⟩ := exists_lookup_assign taskId (List.mem_map_of_mem (f := Node.id) ha)
    have hids : a.id = b.id := lookup_assign_inj hid (hsame ▸ hid)
    exact List.inj_on_of_nodup_map w.nodup_ids ha hb hids

/-- Every node of a workflow has a task id of its own: the first candidate for it that no node
before it has.  Workflows whose first nodes have the same node ids give these nodes the same task
ids, whatever is declared after them. -/
theorem taskIds_name_nodes :
    NamesNodes w.nodes (taskIds (.ofWorkflow w defaults)) ∧
      ∀ (other : Workflow) (defaults' : RouterDefaults) (k : Nat),
        (other.nodes.take k).map Node.id = (w.nodes.take k).map Node.id →
          (taskIds (.ofWorkflow other defaults')).take k =
              (taskIds (.ofWorkflow w defaults)).take k ∧
            ∀ node ∈ w.nodes.take k,
              (taskIds (.ofWorkflow other defaults')).lookup node.id =
                (taskIds (.ofWorkflow w defaults)).lookup node.id := by
  refine ⟨namesNodes_taskIds w defaults, fun other defaults' k hsame => ?_⟩
  rw [List.map_take, List.map_take] at hsame
  rw [taskIds_ofWorkflow, taskIds_ofWorkflow, take_assign, take_assign, hsame]
  refine ⟨rfl, fun node hnode => ?_⟩
  have hkey : node.id ∈ (w.nodes.map Node.id).take k := by
    rw [← List.map_take]
    exact List.mem_map_of_mem hnode
  rw [lookup_assign_take hkey, lookup_assign_take (hsame ▸ hkey), hsame]

/-- Two nodes ask for the same task id, and the third for the one that the second is
given. -/
def clashingIds : Workflow :=
  .ofSound { nodes := [.new "a b" "t", .new "a?b" "t", .new "a_b_2" "t"] }
    ((Definition.violations_eq_nil_iff _).2 (by decide))

/-- The same nodes with another one last, which asks for the id of the first two. -/
def clashingIdsTwice : Workflow :=
  .ofSound { nodes := [.new "a b" "t", .new "a?b" "t", .new "a_b" "t"] }
    ((Definition.violations_eq_nil_iff _).2 (by decide))

/-- The third node is numbered again, and the first two have the same ids before either. -/
theorem taskIds_name_nodes_clashingIds :
    taskIds (.ofWorkflow clashingIds {}) =
        [("a b", "a_b"), ("a?b", "a_b_2"), ("a_b_2", "a_b_2_2")] ∧
      NamesNodes clashingIds.nodes (taskIds (.ofWorkflow clashingIds {})) ∧
      (clashingIdsTwice.nodes.take 2).map Node.id = (clashingIds.nodes.take 2).map Node.id ∧
      (taskIds (.ofWorkflow clashingIdsTwice {})).lookup "a?b" =
        (taskIds (.ofWorkflow clashingIds {})).lookup "a?b" := by
  -- each side by itself: the two workflows are not compared as a whole
  have hids : (clashingIds.nodes.take 2).map Node.id = ["a b", "a?b"] := rfl
  have hids' : (clashingIdsTwice.nodes.take 2).map Node.id = ["a b", "a?b"] := rfl
  have hsame := hids'.trans hids.symm
  obtain ⟨hnames, hstable⟩ := taskIds_name_nodes clashingIds {}
  obtain ⟨-, hlookup⟩ := hstable clashingIdsTwice {} 2 hsame
  have hsecond : Node.new "a?b" "t" ∈ clashingIds.nodes.take 2 :=
    List.mem_cons_of_mem _ List.mem_cons_self
  exact ⟨rfl, hnames, hsame, hlookup _ hsecond⟩

end FlowGraph.Program.Airflow
