import FlowGraph.Text.Split

/-!
# Words and pieces of a text

A text is cut at its separators into pieces.  The words are the pieces that are not
empty.  Joining words and cutting the text again gives the same words, and an empty
piece comes about only where a separator stands at an end of the text or beside
another one.

Main results:

- Theorem `words_intercalate`: the words of joined words are these words.
- Theorem `nil_mem_splitOn_iff`: where a separator leaves an empty piece.
- Theorem `endsInWord_iff`: a text ends in a word when the word is its last piece.
-/

namespace FlowGraph

namespace Text

/-! ## Characters of pieces -/

/-- A piece of a text has characters of the text only, and no separator. -/
theorem mem_of_mem_split {isSeparator : Char → Bool} {cs piece : List Char} {c : Char}
    (hpiece : piece ∈ split isSeparator cs) (hc : c ∈ piece) :
    c ∈ cs ∧ isSeparator c = false := by
  induction cs generalizing piece with
  | nil =>
      rw [split, List.mem_singleton] at hpiece
      rw [hpiece] at hc
      contradiction
  | cons d rest ih =>
      rw [split] at hpiece
      split at hpiece
      · rcases List.mem_cons.mp hpiece with rfl | hpiece
        · contradiction
        · obtain ⟨hrest, hletter⟩ := ih hpiece hc
          exact ⟨List.mem_cons_of_mem _ hrest, hletter⟩
      · rename_i hletter
        rw [Bool.not_eq_true] at hletter
        split at hpiece
        · obtain rfl := List.mem_singleton.mp hpiece
          obtain rfl := List.mem_singleton.mp hc
          exact ⟨List.mem_cons_self, hletter⟩
        · rename_i first pieces hsplit
          rcases List.mem_cons.mp hpiece with rfl | hpiece
          · rcases List.mem_cons.mp hc with rfl | hc
            · exact ⟨List.mem_cons_self, hletter⟩
            · obtain ⟨hrest, hother⟩ := ih (hsplit ▸ List.mem_cons_self) hc
              exact ⟨List.mem_cons_of_mem _ hrest, hother⟩
          · obtain ⟨hrest, hother⟩ := ih (hsplit ▸ List.mem_cons_of_mem _ hpiece) hc
            exact ⟨List.mem_cons_of_mem _ hrest, hother⟩

/-- A joined text has characters of its pieces, and those between them. -/
theorem mem_intercalate {separator : List Char} {pieces : List (List Char)} {c : Char}
    (hc : c ∈ separator.intercalate pieces) : c ∈ separator ∨ ∃ piece ∈ pieces, c ∈ piece := by
  induction pieces with
  | nil => simp at hc
  | cons piece rest ih =>
      cases rest with
      | nil => exact .inr ⟨piece, List.mem_cons_self, by simpa using hc⟩
      | cons next rest =>
          rw [List.intercalate_cons_cons, List.mem_append, List.mem_append] at hc
          rcases hc with (hc | hc) | hc
          · exact .inr ⟨piece, List.mem_cons_self, hc⟩
          · exact .inl hc
          · rcases ih hc with hseparator | ⟨other, hother, hin⟩
            · exact .inl hseparator
            · exact .inr ⟨other, List.mem_cons_of_mem _ hother, hin⟩

/-! ## Joined words -/

theorem split_eq_splitOnP (isSeparator : Char → Bool) (cs : List Char) :
    split isSeparator cs = cs.splitOnP isSeparator := by
  induction cs with
  | nil => rfl
  | cons c rest ih =>
      obtain ⟨piece, pieces, hpieces⟩ :=
        List.exists_cons_of_ne_nil (List.splitOnP_ne_nil isSeparator rest)
      rw [split, ih, List.splitOnP_cons_eq_if_modifyHead, hpieces]
      rfl

section

variable {isSeparator : Char → Bool} {separator : Char}

/-- The words of a text are those before and those after a separator. -/
theorem words_append_separator (h : isSeparator separator = true) (a b : List Char) :
    words isSeparator (a ++ separator :: b) = words isSeparator a ++ words isSeparator b := by
  simp only [words, split_eq_splitOnP]
  rw [List.splitOnP_append_cons a b h, List.filter_append]

/-- A text without separators is one word. -/
theorem words_eq_singleton {word : List Char} (hne : word ≠ [])
    (h : ∀ c ∈ word, isSeparator c = false) : words isSeparator word = [word] := by
  rw [words, split_eq_splitOnP, List.splitOnP_eq_singleton h]
  simp [hne]

/-- The words of joined words are these words. -/
theorem words_intercalate (h : isSeparator separator = true) {pieces : List (List Char)}
    (hpieces : ∀ piece ∈ pieces, piece ≠ [] ∧ ∀ c ∈ piece, isSeparator c = false) :
    words isSeparator ([separator].intercalate pieces) = pieces := by
  induction pieces with
  | nil => rfl
  | cons piece rest ih =>
      obtain ⟨⟨hne, hpiece⟩, hrest⟩ := List.forall_mem_cons.mp hpieces
      cases rest with
      | nil => simpa using words_eq_singleton hne hpiece
      | cons next rest =>
          rw [List.intercalate_cons_cons, List.append_assoc, List.singleton_append,
            words_append_separator h, words_eq_singleton hne hpiece, ih hrest]
          rfl

/-! ## Pieces at one separator -/

theorem intercalate_append {before after : List (List Char)} (hbefore : before ≠ [])
    (hafter : after ≠ []) :
    [separator].intercalate (before ++ after) =
      [separator].intercalate before ++ separator :: [separator].intercalate after := by
  induction before with
  | nil => contradiction
  | cons piece rest ih =>
      cases rest with
      | nil =>
          obtain ⟨next, others, rfl⟩ := List.exists_cons_of_ne_nil hafter
          simp [List.intercalate_cons_cons]
      | cons next rest =>
          have hrest := ih (List.cons_ne_nil next rest)
          rw [List.cons_append] at hrest
          rw [List.cons_append, List.cons_append, List.intercalate_cons_cons, hrest,
            List.intercalate_cons_cons]
          simp

theorem splitOn_append_cons (a b : List Char) :
    (a ++ separator :: b).splitOn separator = a.splitOn separator ++ b.splitOn separator := by
  simp only [List.splitOn_eq_splitOnP]
  exact List.splitOnP_append_cons a b (beq_self_eq_true separator)

theorem splitOn_cons (b : List Char) :
    (separator :: b).splitOn separator = [] :: b.splitOn separator :=
  splitOn_append_cons [] b

/-- A separator leaves an empty piece at the ends of a text and beside another
separator, and nowhere else. -/
theorem nil_mem_splitOn_iff {cs : List Char} :
    [] ∈ cs.splitOn separator ↔
      cs = [] ∨ [separator] <+: cs ∨ [separator] <:+ cs ∨ [separator, separator] <:+: cs := by
  constructor
  · intro hmem
    obtain ⟨before, after, hsplit⟩ := List.append_of_mem hmem
    have hjoined : cs = [separator].intercalate (before ++ [] :: after) := by
      rw [← hsplit, List.intercalate_splitOn]
    cases before with
    | nil =>
        cases after with
        | nil => exact .inl (by simpa using hjoined)
        | cons next after =>
            rw [List.nil_append, List.intercalate_cons_cons] at hjoined
            exact .inr (.inl ⟨_, hjoined.symm⟩)
    | cons piece before =>
        rw [intercalate_append (List.cons_ne_nil _ _) (List.cons_ne_nil _ _)] at hjoined
        cases after with
        | nil => exact .inr (.inr (.inl ⟨_, by simpa using hjoined.symm⟩))
        | cons next after =>
            rw [List.intercalate_cons_cons] at hjoined
            exact .inr (.inr (.inr ⟨_, _, by simpa using hjoined.symm⟩))
  · rintro (rfl | ⟨b, rfl⟩ | ⟨a, rfl⟩ | ⟨a, b, rfl⟩)
    · exact List.mem_singleton_self _
    · rw [List.singleton_append, splitOn_cons]
      exact List.mem_cons_self
    · rw [splitOn_append_cons]
      exact List.mem_append_right _ (List.mem_singleton_self _)
    · rw [List.append_assoc, List.cons_append, splitOn_append_cons, List.singleton_append,
        splitOn_cons]
      exact List.mem_append_right _ List.mem_cons_self

end

/-! ## The last word -/

/-- A text ends in a word, before which nothing or a separator stands. -/
structure EndsInWord (separator : Char) (word cs : List Char) : Prop where
  ends : word <:+ cs
  whole : ∀ c, c :: word <:+ cs → c = separator

/-- A text ends in a word when the word is its last piece. -/
theorem endsInWord_iff {separator : Char} {word cs : List Char} (h : separator ∉ word) :
    EndsInWord separator word cs ↔ (cs.splitOn separator).getLast? = some word := by
  have hword : word.splitOn separator = [word] := by
    have hpieces : ∀ piece ∈ [word], separator ∉ piece := by simpa using h
    simpa using List.splitOn_intercalate separator hpieces (List.cons_ne_nil _ _)
  rw [List.getLast?_eq_some_iff]
  constructor
  · rintro ⟨⟨before, rfl⟩, hwhole⟩
    rcases List.eq_nil_or_concat before with rfl | ⟨front, c, rfl⟩
    · exact ⟨[], hword⟩
    · rw [List.concat_eq_append, List.append_assoc, List.singleton_append] at hwhole ⊢
      obtain rfl := hwhole c (List.suffix_append _ _)
      exact ⟨_, by rw [splitOn_append_cons, hword]⟩
  · rintro ⟨pieces, hpieces⟩
    have hjoined : [separator].intercalate (pieces ++ [word]) = cs := by
      rw [← hpieces, List.intercalate_splitOn]
    rcases List.eq_nil_or_concat pieces with rfl | ⟨front, piece, rfl⟩
    · obtain rfl : word = cs := by simpa using hjoined
      refine ⟨List.suffix_rfl, fun c hsuffix => ?_⟩
      have hlength := hsuffix.length_le
      rw [List.length_cons] at hlength
      omega
    · rw [intercalate_append (by simp) (by simp), List.intercalate_singleton] at hjoined
      rw [← hjoined]
      refine ⟨(List.suffix_cons _ _).trans (List.suffix_append _ _), fun c hsuffix => ?_⟩
      have hsame : c :: word = separator :: word :=
        (List.suffix_of_suffix_length_le hsuffix (List.suffix_append _ _) (by simp)).eq_of_length
          (by simp)
      exact (List.cons.inj hsame).1

end Text

end FlowGraph
