import FlowGraph.Proofs.Program.FunctionNames

/-!
# Identifiers of workflows

The identifier of a workflow is made from its name, which may be any text: the words
of the name in lower case, joined by underscores, with one more underscore before a
leading digit.  This module describes the texts that come about in this way, and
shows that they are exactly the names that are their own identifiers.

Main results:

- Theorem `isIdentifierForm_iff_exists_words`: the normal form is that of joined
  words.
- Theorem `isIdentifierForm_workflowIdentifier`: every identifier has the normal form.
- Theorem `workflowIdentifier_eq_self_iff`: exactly the texts of normal form are
  their own identifiers.
-/

namespace FlowGraph

namespace Program

/-! ## The normal form -/

/-- The identifier of a workflow: lower-case ASCII letters, digits and single
underscores, with a letter in front, or with an underscore in front of a digit. -/
structure IsIdentifierForm (cs : List Char) : Prop where
  ne_nil : cs ≠ []
  chars : ∀ c ∈ cs, c.isLower = true ∨ c.isDigit = true ∨ c = '_'
  single : ¬['_', '_'] <:+: cs
  last : ¬['_'] <:+ cs
  first : ∀ c rest, cs = c :: rest → c.isDigit = false
  second : ∀ rest, cs = '_' :: rest → ∃ c tail, rest = c :: tail ∧ c.isDigit = true

/-- A word of an identifier. -/
def IsWord (word : List Char) : Prop := word ≠ [] ∧ ∀ c ∈ word, isLowerOrDigit c = true

/-- A text with an underscore before a leading digit. -/
def shield (cs : List Char) : List Char :=
  match cs with
  | c :: _ => if c.isDigit then '_' :: cs else cs
  | [] => []

theorem shield_cases (cs : List Char) :
    (shield cs = '_' :: cs ∧ ∃ c rest, cs = c :: rest ∧ c.isDigit = true) ∨
      (shield cs = cs ∧ ∀ c rest, cs = c :: rest → c.isDigit = false) := by
  cases cs with
  | nil => exact .inr ⟨rfl, fun _ _ h => nomatch h⟩
  | cons c rest =>
      by_cases hdigit : c.isDigit = true
      · exact .inl ⟨if_pos hdigit, c, rest, rfl, hdigit⟩
      · refine .inr ⟨if_neg hdigit, fun d tail h => ?_⟩
        obtain ⟨rfl, -⟩ := List.cons.inj h
        simpa using hdigit

/-- Letters and digits are no underscores. -/
theorem isLowerOrDigit_ne {c : Char} (h : isLowerOrDigit c = true) : c ≠ '_' := by
  rintro rfl
  contradiction

/-- What holds of every ASCII character holds of lower-case letters and digits. -/
theorem forall_isLowerOrDigit {p : Char → Prop} (h : ∀ n < 128, p (Char.ofNat n)) {c : Char}
    (hc : isLowerOrDigit c = true) : p c := by
  have hcode : c.toNat < 128 := by
    rcases Bool.or_eq_true_iff.mp hc with hlower | hdigit
    · have hle : c.val.toNat ≤ 122 := of_decide_eq_true (Bool.and_eq_true_iff.mp hlower).2
      exact Nat.lt_of_le_of_lt hle (by decide)
    · have hle : c.val.toNat ≤ 57 := of_decide_eq_true (Bool.and_eq_true_iff.mp hdigit).2
      exact Nat.lt_of_le_of_lt hle (by decide)
  simpa using h c.toNat hcode

/-- Lower-case letters and digits are not in upper case. -/
theorem isUpper_of_isLowerOrDigit {c : Char} (hc : isLowerOrDigit c = true) :
    c.isUpper = false :=
  forall_isLowerOrDigit (p := fun c => isLowerOrDigit c = true → c.isUpper = false)
    (by decide +kernel) hc hc

theorem toLower_eq_self {c : Char} (h : c.isUpper = false) : c.toLower = c := by
  unfold Char.toLower
  split
  · rename_i hupper
    have hisUpper : c.isUpper = true := decide_eq_true hupper
    rw [hisUpper] at h
    contradiction
  · rfl

/-- A character of a word separates no words. -/
theorem isNameChar_of_isLowerOrDigit {c : Char} (h : isLowerOrDigit c = true) :
    isNameChar c = true := by
  simp only [isLowerOrDigit, Bool.or_eq_true] at h
  rw [isNameChar, isAlphanum_eq]
  rcases h with h | h <;> simp [h]

section

variable {words : List (List Char)}

/-- The pieces of joined words are these words. -/
theorem splitOn_intercalate_words (hne : words ≠ []) (hwords : ∀ word ∈ words, IsWord word) :
    (['_'].intercalate words).splitOn '_' = words :=
  List.splitOn_intercalate '_'
    (fun word hword hmem => isLowerOrDigit_ne ((hwords word hword).2 '_' hmem) rfl) hne

/-- An underscore before a leading digit adds no word. -/
theorem words_shield (hwords : ∀ word ∈ words, IsWord word) :
    Text.words (!isNameChar ·) (shield (['_'].intercalate words)) = words := by
  have hjoined : Text.words (!isNameChar ·) (['_'].intercalate words) = words :=
    Text.words_intercalate rfl fun word hword =>
      ⟨(hwords word hword).1, fun c hc => by
        simp [isNameChar_of_isLowerOrDigit ((hwords word hword).2 c hc)]⟩
  rcases shield_cases (['_'].intercalate words) with ⟨hshield, -⟩ | ⟨hshield, -⟩
  · rw [hshield]
    exact (Text.words_append_separator rfl [] _).trans hjoined
  · rw [hshield, hjoined]

/-- An underscore before a leading digit leaves at most an empty piece in front of the words. -/
theorem splitOn_shield (hne : words ≠ []) (hwords : ∀ word ∈ words, IsWord word) :
    (shield (['_'].intercalate words)).splitOn '_' = words ∨
      (shield (['_'].intercalate words)).splitOn '_' = [] :: words := by
  rcases shield_cases (['_'].intercalate words) with ⟨hshield, -⟩ | ⟨hshield, -⟩
  · rw [hshield, Text.splitOn_cons, splitOn_intercalate_words hne hwords]
    exact .inr rfl
  · rw [hshield, splitOn_intercalate_words hne hwords]
    exact .inl rfl

/-- Joined words have the normal form, with an underscore before a leading digit. -/
theorem isIdentifierForm_shield (hne : words ≠ []) (hwords : ∀ word ∈ words, IsWord word) :
    IsIdentifierForm (shield (['_'].intercalate words)) := by
  have hpieces : [] ∉ (['_'].intercalate words).splitOn '_' := by
    rw [splitOn_intercalate_words hne hwords]
    exact fun hmem => (hwords [] hmem).1 rfl
  simp only [Text.nil_mem_splitOn_iff, not_or] at hpieces
  obtain ⟨hnil, hfirst, hlast, hsingle⟩ := hpieces
  have hchars : ∀ c ∈ ['_'].intercalate words,
      c.isLower = true ∨ c.isDigit = true ∨ c = '_' := by
    intro c hc
    rcases Text.mem_intercalate hc with hseparator | ⟨word, hword, hc⟩
    · exact .inr (.inr (List.mem_singleton.mp hseparator))
    · have hletter := (hwords word hword).2 c hc
      simp only [isLowerOrDigit, Bool.or_eq_true] at hletter
      exact hletter.imp_right .inl
  rcases shield_cases (['_'].intercalate words) with
    ⟨hshield, c, rest, hjoined, hdigit⟩ | ⟨hshield, hnodigit⟩
  · rw [hshield]
    refine {
      ne_nil := List.cons_ne_nil _ _
      chars := List.forall_mem_cons.mpr ⟨.inr (.inr rfl), hchars⟩
      single := ?_
      last := ?_
      first := ?_
      second := ?_ }
    · -- two underscores would stand in the words, or one at their beginning
      intro hdouble
      rcases List.infix_cons_iff.mp hdouble with hstart | hdouble
      · exact hfirst (List.cons_prefix_cons.mp hstart).2
      · exact hsingle hdouble
    · intro hsuffix
      rcases List.suffix_cons_iff.mp hsuffix with heq | hsuffix
      · exact hnil (List.cons.inj heq).2.symm
      · exact hlast hsuffix
    · intro d tail heq
      rw [← (List.cons.inj heq).1]
      rfl
    · intro tail heq
      exact ⟨c, rest, (List.cons.inj heq).2 ▸ hjoined, hdigit⟩
  · rw [hshield]
    refine ⟨hnil, hchars, hsingle, hlast, hnodigit, fun rest heq => ?_⟩
    exact absurd ⟨rest, heq.symm⟩ hfirst

end

/-- The pieces of a text between its underscores are words when no underscore leaves an
empty piece. -/
theorem isWord_of_mem_splitOn {cs : List Char}
    (hchars : ∀ c ∈ cs, c.isLower = true ∨ c.isDigit = true ∨ c = '_')
    (hpieces : [] ∉ cs.splitOn '_') {word : List Char} (hword : word ∈ cs.splitOn '_') :
    IsWord word := by
  refine ⟨fun hnil => hpieces (hnil ▸ hword), fun c hc => ?_⟩
  rw [List.splitOn_eq_splitOnP, ← Text.split_eq_splitOnP] at hword
  obtain ⟨hmem, hletter⟩ := Text.mem_of_mem_split hword hc
  simpa [isLowerOrDigit, show c ≠ '_' by simpa using hletter] using hchars c hmem

/-- The normal form is that of joined words. -/
theorem isIdentifierForm_iff_exists_words {cs : List Char} :
    IsIdentifierForm cs ↔
      ∃ words : List (List Char), words ≠ [] ∧ (∀ word ∈ words, IsWord word) ∧
        cs = shield (['_'].intercalate words) := by
  constructor
  · intro h
    -- what is left without the underscore before a digit
    obtain ⟨joined, hjoined, hsuffix, hnil, hfirst⟩ : ∃ joined, cs = shield joined ∧
        joined <:+ cs ∧ joined ≠ [] ∧ ¬['_'] <+: joined := by
      by_cases hunderscore : ['_'] <+: cs
      · obtain ⟨rest, rfl⟩ := hunderscore
        obtain ⟨c, tail, rfl, hdigit⟩ := h.second rest rfl
        refine ⟨c :: tail, (if_pos hdigit).symm, List.suffix_cons _ _, List.cons_ne_nil _ _, ?_⟩
        intro hstart
        rw [← (List.cons_prefix_cons.mp hstart).1] at hdigit
        contradiction
      · rcases shield_cases cs with ⟨-, c, rest, heq, hdigit⟩ | ⟨hshield, -⟩
        · rw [h.first c rest heq] at hdigit
          contradiction
        · exact ⟨cs, hshield.symm, List.suffix_rfl, h.ne_nil, hunderscore⟩
    have hpieces : [] ∉ joined.splitOn '_' := by
      simp only [Text.nil_mem_splitOn_iff, not_or]
      exact ⟨hnil, hfirst, fun hlast => h.last (hlast.trans hsuffix),
        fun hdouble => h.single (hdouble.trans hsuffix.isInfix)⟩
    refine ⟨joined.splitOn '_', List.splitOnP_ne_nil _ _, fun word hword => ?_, ?_⟩
    · exact isWord_of_mem_splitOn (fun c hc => h.chars c (hsuffix.subset hc)) hpieces hword
    · rw [List.intercalate_splitOn, hjoined]
  · rintro ⟨words, hne, hwords, rfl⟩
    exact isIdentifierForm_shield hne hwords

/-! ## Identifiers -/

theorem snake_eq_shield (text : List Char) :
    snake text =
      shield (['_'].intercalate (Text.words (!isNameChar ·) (text.flatMap lowerCase))) := rfl

/-- The words of a text in lower case are words of an identifier. -/
theorem isWord_of_mem_words {text word : List Char}
    (hword : word ∈ Text.words (!isNameChar ·) (text.flatMap lowerCase)) : IsWord word := by
  have hne : word ≠ [] := by simpa using (List.mem_filter.mp hword).2
  exact ⟨hne, fun _ hc => isLowerOrDigit_of_mem_words hword hc⟩

/-- A text of normal form is already in lower case. -/
theorem flatMap_lowerCase_eq_self {cs : List Char}
    (hchars : ∀ c ∈ cs, c.isLower = true ∨ c.isDigit = true ∨ c = '_') :
    cs.flatMap lowerCase = cs := by
  induction cs with
  | nil => rfl
  | cons c rest ih =>
      obtain ⟨hc, hrest⟩ := List.forall_mem_cons.mp hchars
      have hsame : lowerCase c = [c] := by
        have hupper : c.isUpper = false := by
          rcases hc with hc | hc | rfl
          · exact isUpper_of_isLowerOrDigit (by simp [isLowerOrDigit, hc])
          · exact isUpper_of_isLowerOrDigit (by simp [isLowerOrDigit, hc])
          · rfl
        have hdotted : c ≠ '\u0130' := by
          rintro rfl
          simp at hc
        have hkelvin : c ≠ '\u212a' := by
          rintro rfl
          simp at hc
        rw [lowerCase, if_neg hdotted, if_neg hkelvin, toLower_eq_self hupper]
      rw [List.flatMap_cons, hsame, ih hrest, List.singleton_append]

/-- A text of normal form is kept. -/
theorem snake_eq_self {cs : List Char} (h : IsIdentifierForm cs) : snake cs = cs := by
  obtain ⟨words, -, hwords, hcs⟩ := isIdentifierForm_iff_exists_words.mp h
  rw [snake_eq_shield, flatMap_lowerCase_eq_self h.chars, hcs, words_shield hwords]

/-- Every identifier has the normal form. -/
theorem isIdentifierForm_workflowIdentifier (name : String) :
    IsIdentifierForm (workflowIdentifier name).toList := by
  rw [isIdentifierForm_iff_exists_words]
  unfold workflowIdentifier
  split
  · refine ⟨["twiddle".toList, "workflow".toList], List.cons_ne_nil _ _, ?_, rfl⟩
    have hletters : ["twiddle".toList, "workflow".toList].all
        (fun word => word.all isLowerOrDigit && !word.isEmpty) = true := rfl
    intro word hword
    have hall := List.all_eq_true.mp hletters word hword
    simp only [Bool.and_eq_true, List.all_eq_true] at hall
    exact ⟨by simpa using hall.2, hall.1⟩
  · rename_i hne
    rw [String.toList_ofList]
    refine ⟨_, fun hnil => hne ?_, fun word hword => isWord_of_mem_words hword,
      snake_eq_shield name.toList⟩
    rw [snake_eq_shield, hnil]
    rfl

/-- Exactly the texts of normal form are their own identifiers. -/
theorem workflowIdentifier_eq_self_iff {name : String} :
    workflowIdentifier name = name ↔ IsIdentifierForm name.toList := by
  constructor
  · intro h
    rw [← h]
    exact isIdentifierForm_workflowIdentifier name
  · intro h
    have hne := h.ne_nil
    unfold workflowIdentifier
    rw [snake_eq_self h]
    split
    · contradiction
    · exact String.ofList_toList

end Program

end FlowGraph
