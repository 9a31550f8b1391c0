import FlowGraph.Proofs.Program.WorkflowNames

/-!
# Class names

The class of a workflow is named after its identifier: the words of the identifier
in a row, each with its first letter in upper case, and `Workflow` at the end unless
it stands there already.  Words are cut where the case changes, but an identifier has
no upper case, so that its words are what stands between its underscores.

Whether `Workflow` stands at the end is asked of the class name, where only the first
letter of a word is in upper case.  So a last word that is longer than `workflow` and
ends in it does not count.

Main results:

- Theorem `upperCamel_identifier`: the words of an identifier are what stands between
  its underscores.
- Theorem `suffix_pascalCase_iff`: when the words of an identifier end in `Workflow`.
- Theorem `toList_className`: the class name of an identifier.
- Theorem `isIdentifier_className`: it is an identifier of the generated language.
- Theorem `workflowIdentifier_normal`: identifiers and class names are well formed.
- Theorem `className_appends_unless_word`: what a class name has at its end.
-/

namespace FlowGraph

namespace Program

/-! ## Upper case -/

/-- The upper-case form of a letter or a digit is one, but not in lower case. -/
theorem isAlphanum_toUpper {c : Char} (hc : isLowerOrDigit c = true) :
    c.toUpper.isAlphanum = true ∧ c.toUpper.isLower = false :=
  forall_isLowerOrDigit
    (p := fun c => isLowerOrDigit c = true →
      c.toUpper.isAlphanum = true ∧ c.toUpper.isLower = false)
    (by decide +kernel) hc hc

/-- Only one letter has a given upper-case form. -/
theorem eq_of_toUpper_eq {c : Char} (hc : isLowerOrDigit c = true) (hupper : c.toUpper = 'W') :
    c = 'w' :=
  forall_isLowerOrDigit (p := fun c => isLowerOrDigit c = true → c.toUpper = 'W' → c = 'w')
    (by decide +kernel) hc hc hupper

/-! ## The words of an identifier -/

/-- A text without upper case is not cut. -/
theorem caseWords_eq_singleton {word text : List Char} {current : LetterCase}
    (hcurrent : current ≠ .upper) (htext : ∀ c ∈ text, c.isUpper = false)
    (hne : word ≠ [] ∨ text ≠ []) : caseWords word current text = [word.reverse ++ text] := by
  fun_induction caseWords word current text with
  | case1 => simp_all
  | case2 => simp_all
  | case3 => simp_all
  | case4 word current c next rest hcut ih => simp_all
  | case5 word current c next rest _ hcut ih => simp_all
  | case6 word current c next rest _ _ ih =>
      obtain ⟨hc, hrest⟩ := List.forall_mem_cons.mp htext
      have hafter : current.after c ≠ .upper := by
        unfold LetterCase.after
        split
        · simp
        · simpa [hc] using hcurrent
      rw [ih hafter hrest (.inl (List.cons_ne_nil _ _))]
      simp

/-- A word with its first letter in upper case. -/
def pascalWord : List Char → List Char
  | [] => []
  | c :: rest => c.toUpper :: rest

/-- The words of an identifier in a row, each with its first letter in upper case,
with an underscore before a leading digit. -/
def pascalCase (identifier : List Char) : List Char :=
  shield ((identifier.splitOn '_').flatMap pascalWord)

theorem capitalize_eq_pascalWord {word : List Char} (h : IsWord word) :
    capitalize word = pascalWord word := by
  cases word with
  | nil => rfl
  | cons c rest =>
      have hlower : ∀ d ∈ rest, d.toLower = d := fun d hd =>
        toLower_eq_self (isUpper_of_isLowerOrDigit (h.2 d (List.mem_cons_of_mem _ hd)))
      rw [capitalize, pascalWord, List.map_congr_left hlower, List.map_id']

/-- A word of an identifier is not cut. -/
theorem flatMap_capitalize_caseWords {word : List Char} (h : IsWord word) :
    (caseWords [] .undecided word).flatMap capitalize = pascalWord word := by
  have hupper : ∀ c ∈ word, c.isUpper = false := fun c hc => isUpper_of_isLowerOrDigit (h.2 c hc)
  rw [caseWords_eq_singleton (by simp) hupper (.inr h.1), List.flatMap_singleton]
  exact capitalize_eq_pascalWord h

section

variable {words : List (List Char)}

theorem upperCamel_shield (hwords : ∀ word ∈ words, IsWord word) :
    upperCamel (shield (['_'].intercalate words)) = words.flatMap pascalWord := by
  rw [upperCamel, words_shield hwords, List.flatMap, List.flatMap]
  rw [List.map_congr_left fun word hword => flatMap_capitalize_caseWords (hwords word hword)]

/-- An empty piece in front adds nothing to the words in a row. -/
theorem flatMap_splitOn_shield (hne : words ≠ []) (hwords : ∀ word ∈ words, IsWord word) :
    ((shield (['_'].intercalate words)).splitOn '_').flatMap pascalWord =
      words.flatMap pascalWord := by
  rcases splitOn_shield hne hwords with hsplit | hsplit
  · rw [hsplit]
  · rw [hsplit, List.flatMap_cons]
    rfl

end

/-- The words of an identifier are what stands between its underscores. -/
theorem upperCamel_identifier {cs : List Char} (h : IsIdentifierForm cs) :
    upperCamel cs = (cs.splitOn '_').flatMap pascalWord := by
  obtain ⟨words, hne, hwords, rfl⟩ := isIdentifierForm_iff_exists_words.mp h
  rw [upperCamel_shield hwords, flatMap_splitOn_shield hne hwords]

/-- The words of an identifier in a row are letters and digits, at least one. -/
theorem isAlphanum_upperCamel {cs : List Char} (h : IsIdentifierForm cs) :
    upperCamel cs ≠ [] ∧ ∀ c ∈ upperCamel cs, c.isAlphanum = true := by
  obtain ⟨words, hne, hwords, rfl⟩ := isIdentifierForm_iff_exists_words.mp h
  rw [upperCamel_shield hwords]
  constructor
  · obtain ⟨word, others, rfl⟩ := List.exists_cons_of_ne_nil hne
    obtain ⟨c, rest, rfl⟩ :=
      List.exists_cons_of_ne_nil (hwords word List.mem_cons_self).1
    simp [pascalWord]
  · intro c hc
    obtain ⟨word, hword, hc⟩ := List.mem_flatMap.mp hc
    have hletters := (hwords word hword).2
    cases word with
    | nil => contradiction
    | cons first rest =>
        rcases List.mem_cons.mp hc with rfl | hc
        · exact (isAlphanum_toUpper (hletters first List.mem_cons_self)).1
        · exact isNameChar_of_isLowerOrDigit (hletters c (List.mem_cons_of_mem _ hc))

/-! ## The end of a class name -/

/-- The word of an identifier that a class name need not repeat. -/
def suffixWord : List Char := "workflow".toList

/-- An underscore before a leading digit is no part of `Workflow`. -/
theorem suffix_shield_iff {cs : List Char} : classSuffix <:+ shield cs ↔ classSuffix <:+ cs := by
  rcases shield_cases cs with ⟨hshield, -⟩ | ⟨hshield, -⟩
  · have hne : classSuffix ≠ '_' :: cs := fun h => absurd (List.cons.inj h).1 (by decide)
    rw [hshield, List.suffix_cons_iff, or_iff_right hne]
  · rw [hshield]

/-- What ends in `Workflow` after a word has that word for it. -/
theorem suffix_pascalWord_iff {front word : List Char} (h : IsWord word) :
    classSuffix <:+ front ++ pascalWord word ↔ word = suffixWord := by
  constructor
  · intro hsuffix
    obtain ⟨c, rest, rfl⟩ := List.exists_cons_of_ne_nil h.1
    obtain ⟨hc, hrest⟩ := List.forall_mem_cons.mp h.2
    -- Upper case stands at the beginning of the suffix and of the word, and nowhere else.
    have hsame : classSuffix = c.toUpper :: rest := by
      rcases List.suffix_or_suffix_of_suffix hsuffix (List.suffix_append _ _) with
        hshort | hlong
      · rcases List.suffix_cons_iff.mp hshort with heq | hinner
        · exact heq
        · have hmem : 'W' ∈ rest := hinner.subset List.mem_cons_self
          have hupper := isUpper_of_isLowerOrDigit (hrest 'W' hmem)
          contradiction
      · rcases List.suffix_cons_iff.mp hlong with heq | hinner
        · exact heq.symm
        · have hlower : "orkflow".toList.all Char.isLower = true := rfl
          have hmem := List.all_eq_true.mp hlower _ (hinner.subset List.mem_cons_self)
          rw [(isAlphanum_toUpper hc).2] at hmem
          contradiction
    obtain ⟨hfirst, htail⟩ := List.cons.inj hsame
    rw [eq_of_toUpper_eq hc hfirst.symm, ← htail]
    rfl
  · rintro rfl
    exact List.suffix_append _ _

/-- The words of an identifier end in `Workflow` when `workflow` is the last of them. -/
theorem suffix_pascalCase_iff {cs : List Char} (h : IsIdentifierForm cs) :
    classSuffix <:+ pascalCase cs ↔ Text.EndsInWord '_' suffixWord cs := by
  obtain ⟨words, hne, hwords, rfl⟩ := isIdentifierForm_iff_exists_words.mp h
  obtain ⟨front, word, rfl⟩ := (List.eq_nil_or_concat words).resolve_left hne
  have hlast : ((shield (['_'].intercalate (front.concat word))).splitOn '_').getLast? =
      some word := by
    rcases splitOn_shield hne hwords with hsplit | hsplit
    · rw [hsplit, List.concat_eq_append, List.getLast?_concat]
    · rw [hsplit, List.concat_eq_append, ← List.cons_append, List.getLast?_concat]
  rw [Text.endsInWord_iff (by decide), hlast, Option.some_inj, pascalCase, suffix_shield_iff,
    flatMap_splitOn_shield hne hwords, List.concat_eq_append, List.flatMap_append,
    List.flatMap_singleton]
  exact suffix_pascalWord_iff (hwords word (by simp))

/-- A class name is the words of its identifier, with `Workflow` after them unless it stands
there already. -/
theorem toList_className {identifier : String} (h : IsIdentifierForm identifier.toList) :
    (className identifier).toList =
      if classSuffix.isSuffixOf (pascalCase identifier.toList) then pascalCase identifier.toList
      else pascalCase identifier.toList ++ classSuffix := by
  obtain ⟨c, rest, hcamel⟩ := List.exists_cons_of_ne_nil (isAlphanum_upperCamel h).1
  have hpascal : pascalCase identifier.toList = shield (c :: rest) := by
    rw [pascalCase, ← upperCamel_identifier h, hcamel]
  rw [hpascal, className, hcamel]
  exact String.toList_ofList

section

variable {identifier : String} (h : IsIdentifierForm identifier.toList)

include h

/-- Every class name ends in `Workflow`. -/
theorem suffix_className : classSuffix <:+ (className identifier).toList := by
  rw [toList_className h]
  split
  · rename_i hsuffix
    exact List.isSuffixOf_iff_suffix.mp hsuffix
  · exact List.suffix_append _ _

/-- A class name is the words of its identifier, protected from a leading digit, with letters
and digits after them. -/
theorem exists_toList_className :
    ∃ tail, (className identifier).toList = shield (upperCamel identifier.toList) ++ tail ∧
      ∀ c ∈ tail, c.isAlphanum = true := by
  have hletters : classSuffix.all Char.isAlphanum = true := rfl
  rw [toList_className h, pascalCase, ← upperCamel_identifier h]
  split
  · exact ⟨[], (List.append_nil _).symm, fun c hc => nomatch hc⟩
  · exact ⟨classSuffix, rfl, List.all_eq_true.mp hletters⟩

/-- Every class name is an identifier of the generated language. -/
theorem isIdentifier_className : IsIdentifier (className identifier) := by
  obtain ⟨tail, hname, htail⟩ := exists_toList_className h
  obtain ⟨hne, hcamel⟩ := isAlphanum_upperCamel h
  obtain ⟨c, rest, hcons⟩ := List.exists_cons_of_ne_nil hne
  have hchars : ∀ d ∈ (c :: rest) ++ tail, d.isAlphanum = true :=
    List.forall_mem_append.mpr ⟨hcons ▸ hcamel, htail⟩
  have hall : ∀ d ∈ (c :: rest) ++ tail, (d.isAlphanum || d = '_') = true := fun d hd => by
    simp [hchars d hd]
  rw [hcons] at hname
  constructor
  · rcases shield_cases (c :: rest) with ⟨hshield, -⟩ | ⟨hshield, hdigit⟩
    · exact ⟨'_', c :: rest ++ tail, by rw [hname, hshield, List.cons_append], rfl, hall⟩
    · have hfirst := hchars c List.mem_cons_self
      rw [Char.isAlphanum, hdigit c rest rfl, Bool.or_false] at hfirst
      exact ⟨c, rest ++ tail, by rw [hname, hshield, List.cons_append], by simp [hfirst],
        fun d hd => hall d (List.mem_cons_of_mem _ hd)⟩
  · have hother : reservedWords.all (fun word => !classSuffix.isSuffixOf word.toList) = true := rfl
    intro hmem
    have hnot := List.all_eq_true.mp hother _ hmem
    rw [List.isSuffixOf_iff_suffix.mpr (suffix_className h)] at hnot
    exact Bool.noConfusion hnot

end

/-- The identifier of a workflow name has the normal form, whatever the name is, and exactly the
names of normal form are their own identifiers, so that the identifier of an identifier is itself.
The class of an identifier has a well-formed name, which ends in `Workflow`. -/
theorem workflowIdentifier_normal (name : String) :
    let identifier := workflowIdentifier name
    IsIdentifierForm identifier.toList ∧
      (workflowIdentifier name = name ↔ IsIdentifierForm name.toList) ∧
      workflowIdentifier identifier = identifier ∧
      upperCamel identifier.toList = (identifier.toList.splitOn '_').flatMap pascalWord ∧
      IsIdentifier (className identifier) ∧
      "Workflow".toList <:+ (className identifier).toList := by
  have hform := isIdentifierForm_workflowIdentifier name
  exact ⟨hform, workflowIdentifier_eq_self_iff, workflowIdentifier_eq_self_iff.mpr hform,
    upperCamel_identifier hform, isIdentifier_className hform, suffix_className hform⟩

/-- The class name of an identifier is its words in a row with `Workflow` after them, which is left
out when `workflow` is the last word of the identifier.  A longer last word that ends in `workflow`
does not count: then, too, it stands after the words. -/
theorem className_appends_unless_word (name : String) :
    let identifier := (workflowIdentifier name).toList
    let pascal := pascalCase identifier
    let classChars := (className (workflowIdentifier name)).toList
    (classChars = pascal ↔ Text.EndsInWord '_' "workflow".toList identifier) ∧
      (classChars = pascal ++ "Workflow".toList ↔
        ¬Text.EndsInWord '_' "workflow".toList identifier) ∧
      ("Workflow".toList <:+ pascal ↔ Text.EndsInWord '_' "workflow".toList identifier) := by
  intro identifier pascal classChars
  have hform : IsIdentifierForm identifier := isIdentifierForm_workflowIdentifier name
  have hends : "Workflow".toList <:+ pascal ↔ Text.EndsInWord '_' "workflow".toList identifier :=
    suffix_pascalCase_iff hform
  have hclass : classChars =
      if classSuffix.isSuffixOf pascal then pascal else pascal ++ classSuffix :=
    toList_className hform
  have hlonger : pascal ≠ pascal ++ classSuffix := fun h =>
    absurd (List.self_eq_append_right.mp h) (by decide)
  rw [← hends]
  by_cases hsuffix : classSuffix <:+ pascal
  · rw [if_pos (List.isSuffixOf_iff_suffix.mpr hsuffix)] at hclass
    exact ⟨iff_of_true hclass hsuffix,
      iff_of_false (fun h => hlonger (hclass.symm.trans h)) (not_not_intro hsuffix), Iff.rfl⟩
  · rw [if_neg (fun h => hsuffix (List.isSuffixOf_iff_suffix.mp h))] at hclass
    exact ⟨iff_of_false (fun h => hlonger (h.symm.trans hclass)) hsuffix,
      iff_of_true hclass hsuffix, Iff.rfl⟩

/-- The name `MyWorkflow` loses its upper case, so that its identifier is one word, which ends in
`workflow`: the class has the word twice. -/
theorem className_doubles_myWorkflow :
    workflowIdentifier "MyWorkflow" = "myworkflow" ∧
      "workflow".toList <:+ "myworkflow".toList ∧
      pascalCase "myworkflow".toList = "Myworkflow".toList ∧
      className "myworkflow" = "MyworkflowWorkflow" :=
  ⟨rfl, by decide, rfl, rfl⟩

end Program

end FlowGraph
