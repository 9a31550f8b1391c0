import FlowGraph.Program.Project
import FlowGraph.Proofs.Program.FunctionNames
import FlowGraph.Proofs.Program.LiteralReader

/-!
# Texts without the NUL character

Source text must not hold the NUL character anywhere, not even in a comment.  Free text
reaches generated source in three ways: a docstring keeps the character, while a comment
and a literal hold no control character that a line cannot have.  Names and numbers are
written in letters, digits and underscores.

Main results:

- Theorem `holdsNul_docstring`: a docstring holds NUL just if its text does.
- Theorem `isControl_of_mem_comment`: a comment stays on its line.
- Theorems `holdsNul_string` and `holdsNul_value`: no literal holds NUL.
- Theorems `holdsNul_className` and `IsFunctionName.holdsNul`: no name does.
-/

namespace FlowGraph.Program

/-- Whether a text holds the NUL character. -/
def holdsNul (s : String) : Bool := s.toList.contains '\x00'

/-- A text of certain characters holds no NUL if NUL is none of them. -/
theorem holdsNul_eq_false_of_all {s : String} {p : Char → Prop} (hchars : ∀ c ∈ s.toList, p c)
    (hnul : ¬ p '\x00') : holdsNul s = false := by
  rw [holdsNul, List.contains_eq_mem, decide_eq_false_iff_not]
  exact fun hmem => hnul (hchars _ hmem)

/-- A fixed text is looked at as characters. -/
theorem holdsNul_ofList (cs : List Char) : holdsNul (String.ofList cs) = cs.contains '\x00' := by
  rw [holdsNul, String.toList_ofList]

@[simp]
theorem holdsNul_append (a b : String) : holdsNul (a ++ b) = (holdsNul a || holdsNul b) := by
  simp [holdsNul]

/-- Texts made of the members of a list hold no NUL if none of them does. -/
theorem any_holdsNul_map {α : Type} {items : List α} {text : α → String}
    (htext : ∀ a ∈ items, holdsNul (text a) = false) : (items.map text).any holdsNul = false := by
  rw [List.any_map, List.any_eq_false]
  intro a ha
  rw [Function.comp_apply, htext a ha]
  decide

theorem any_holdsNul_flatMap {α : Type} {items : List α} {texts : α → List String}
    (htexts : ∀ a ∈ items, (texts a).any holdsNul = false) :
    (items.flatMap texts).any holdsNul = false := by
  rw [List.any_flatMap, List.any_eq_false]
  intro a ha
  rw [htexts a ha]
  decide

/-- Joined texts hold NUL just if one of them does, or the text between them. -/
theorem holdsNul_intercalate {separator : String} {parts : List String}
    (hseparator : holdsNul separator = false) (hparts : parts.any holdsNul = false) :
    holdsNul (separator.intercalate parts) = false := by
  induction parts with
  | nil => rw [String.intercalate_nil, ← String.ofList_nil, holdsNul_ofList]; rfl
  | cons part rest ih =>
      rw [List.any_cons, Bool.or_eq_false_iff] at hparts
      cases rest with
      | nil => rw [String.intercalate_singleton, hparts.1]
      | cons next rest =>
          rw [String.intercalate_cons_cons, holdsNul_append, holdsNul_append, hparts.1, hseparator,
            ih hparts.2]
          rfl

/-- Lines hold NUL just if one of them does. -/
theorem holdsNul_textOfLines (lines : List String) :
    holdsNul (textOfLines lines) = lines.any holdsNul := by
  have hfeed : holdsNul "\n" = false := by decide
  induction lines with
  | nil => decide
  | cons line rest ih =>
      rw [textOfLines, List.map_cons, String.join_cons, holdsNul_append, holdsNul_append, hfeed,
        Bool.or_false, List.any_cons, ← ih]
      rfl

/-! ## Free text -/

/-- A docstring keeps the characters of its text. -/
@[simp]
theorem holdsNul_docstring (s : String) : holdsNul (docstring s) = holdsNul s := by
  have hchar (c : Char) : (docstringChar c).contains '\x00' = ('\x00' == c) := by
    unfold docstringChar
    split <;> simp [Bool.beq_eq_decide_eq]
  rw [docstring, holdsNul_ofList, holdsNul, docstringChars]
  induction s.toList with
  | nil => rfl
  | cons c rest ih =>
      rw [List.flatMap_cons, List.contains_append, hchar, ih]
      rfl

/-- No character of a comment is a control character. -/
theorem isControl_of_mem_comment {s : String} {c : Char} (hc : c ∈ (comment s).toList) :
    Text.isControl c = false := by
  rw [comment, String.toList_ofList, commentChars] at hc
  obtain ⟨d, -, rfl⟩ := List.mem_map.mp hc
  split
  next => rfl
  next hplain => simpa using hplain

@[simp]
theorem holdsNul_comment (s : String) : holdsNul (comment s) = false :=
  holdsNul_eq_false_of_all (fun _ => isControl_of_mem_comment) (by decide)

/-! ## Numbers and names -/

@[simp]
theorem holdsNul_toString (n : Nat) : holdsNul (toString n) = false :=
  holdsNul_eq_false_of_all (fun _ => isDigit_of_mem_toString) (by decide)

@[simp]
theorem holdsNul_duration (seconds : UInt64) : holdsNul (duration seconds) = false := by
  unfold duration
  rewrite [holdsNul_append, holdsNul_append, holdsNul_toString, holdsNul_ofList, holdsNul_ofList]
  rfl

/-- A numeral holds no NUL. -/
theorem Literal.Numeric.holdsNul_eq_false {s : String} (hs : Literal.Numeric s) :
    holdsNul s = false :=
  holdsNul_eq_false_of_all (List.all_eq_true.mp hs) (by decide)

/-- A well-formed function name holds no NUL. -/
theorem IsFunctionName.holdsNul_eq_false {name : String} (hname : IsFunctionName name) :
    holdsNul name = false := by
  obtain ⟨cs, rfl, hchars, -⟩ := hname
  have hrest : holdsNul (String.ofList cs) = false :=
    holdsNul_eq_false_of_all (fun c hc => hchars c (by simpa using hc)) (by decide)
  rw [holdsNul_append, hrest, holdsNul_ofList]
  rfl

/-- The identifier of every workflow name holds no NUL. -/
@[simp]
theorem holdsNul_workflowIdentifier (name : String) : holdsNul (workflowIdentifier name) = false := by
  unfold workflowIdentifier
  split
  next =>
    rewrite [defaultIdentifier, holdsNul_ofList]
    rfl
  next =>
    have hchars : ∀ c ∈ (String.ofList (snake name.toList)).toList, isFunctionChar c = true := by
      rw [String.toList_ofList]
      exact fun c hc => functionChar_of_mem_snake hc
    exact holdsNul_eq_false_of_all hchars (by decide)

/-! ### Class names -/

/-- Changing the case of a character gives NUL for NUL only. -/
theorem ne_nul_of_changed_case {c : Char} (hc : c ≠ '\x00') :
    c.toLower ≠ '\x00' ∧ c.toUpper ≠ '\x00' := by
  constructor
  · unfold Char.toLower
    split
    next hupper =>
      have hcode : 65 ≤ c.val.toNat ∧ c.val.toNat ≤ 90 := hupper
      have hshift : ('a'.val - 'A'.val).toNat = 32 := rfl
      intro hnul
      have hzero : (c.val + ('a'.val - 'A'.val)).toNat = 0 := congrArg Char.toNat hnul
      rw [UInt32.toNat_add] at hzero
      omega
    next => exact hc
  · unfold Char.toUpper
    split
    next hlower =>
      have hcode : 97 ≤ c.val.toNat ∧ c.val.toNat ≤ 122 := hlower
      have hshift : ('A'.val - 'a'.val).toNat = 4294967264 := by simp
      intro hnul
      have hval := congrArg Char.val hnul
      dsimp only at hval
      have hzero := congrArg UInt32.toNat hval
      rw [UInt32.toNat_add, hshift] at hzero
      have hnone : '\x00'.val.toNat = 0 := rfl
      omega
    next => exact hc

/-- The words of a run are the run cut into pieces. -/
theorem flatten_caseWords (word : List Char) (current : LetterCase) (text : List Char) :
    (caseWords word current text).flatten = word.reverse ++ text := by
  fun_induction caseWords word current text with
  | case1 => simp_all
  | case2 => simp_all
  | case3 => simp_all
  | case4 word current d next rest hcut ih => simp [ih]
  | case5 word current d next rest _ hcut ih => simp [ih]
  | case6 word current d next rest _ _ ih => simp [ih]

/-- The capitalized words of a text hold no NUL. -/
theorem nul_not_mem_upperCamel (text : List Char) : '\x00' ∉ upperCamel text := by
  unfold upperCamel
  simp only [List.mem_flatMap, not_exists, not_and]
  intro piece hpiece word hword hnul
  have hletters : ∀ c ∈ word, c ≠ '\x00' := by
    rintro c hc rfl
    have hmem : '\x00' ∈ (caseWords [] .undecided piece).flatten :=
      List.mem_flatten.mpr ⟨word, hword, hc⟩
    rw [flatten_caseWords] at hmem
    have hseparator := (Text.mem_of_mem_split (List.mem_filter.mp hpiece).1 hmem).2
    exact absurd hseparator (by decide)
  cases word with
  | nil => simp [capitalize] at hnul
  | cons first rest =>
      rcases List.mem_cons.mp hnul with hfirst | hrest
      · exact (ne_nul_of_changed_case (hletters first List.mem_cons_self)).2 hfirst.symm
      · obtain ⟨c, hc, heq⟩ := List.mem_map.mp hrest
        exact (ne_nul_of_changed_case (hletters c (List.mem_cons_of_mem _ hc))).1 heq

/-- No class name holds NUL. -/
@[simp]
theorem holdsNul_className (identifier : String) : holdsNul (className identifier) = false := by
  have hcamel := nul_not_mem_upperCamel identifier.toList
  have hsuffix : '\x00' ∉ classSuffix := by decide
  unfold className
  split
  next =>
    rewrite [holdsNul_ofList]
    rfl
  next c rest heq =>
    rw [heq] at hcamel
    rw [holdsNul_ofList, List.contains_eq_mem, decide_eq_false_iff_not]
    split <;> split <;> simp_all

/-! ## Literals -/

namespace Literal

/-- The spelling of a character has no control character. -/
theorem isControl_of_mem_plainChar {c d : Char} (hd : d ∈ plainChar c) :
    Text.isControl d = false := by
  have hhex (n : Nat) : Text.isControl (Json.hexChar n) = false := by
    have hdigits : ∀ k < 16, Text.isControl (Nat.digitChar k) = false := by decide
    exact hdigits (n % 16) (Nat.mod_lt n (by omega))
  unfold plainChar fourHex at hd
  split at hd
  · simp only [List.mem_cons, List.not_mem_nil, or_false] at hd
    rcases hd with rfl | rfl <;> rfl
  · simp only [List.mem_cons, List.not_mem_nil, or_false] at hd
    rcases hd with rfl | rfl <;> rfl
  · split at hd
    · simp only [List.mem_cons, List.not_mem_nil, or_false] at hd
      rcases hd with rfl | rfl | rfl | rfl | rfl | rfl
      · rfl
      · rfl
      all_goals exact hhex _
    next hplain =>
      obtain rfl := List.mem_singleton.mp hd
      simpa using hplain

/-- Neither spelling of a character holds NUL. -/
theorem nul_not_mem_spelling (c : Char) : '\x00' ∉ doubleChar c ∧ '\x00' ∉ tripleChar c := by
  have hplain : '\x00' ∉ plainChar c := fun hnul =>
    absurd (isControl_of_mem_plainChar hnul) (by decide)
  constructor
  · unfold doubleChar
    split <;> simp_all
  · unfold tripleChar
    split <;> simp_all

/-- Escaping quotes adds no NUL. -/
theorem nul_not_mem_escapeTriples {cs : List Char} (hcs : '\x00' ∉ cs) :
    '\x00' ∉ escapeTriples cs := by
  fun_induction escapeTriples cs <;> simp_all

theorem nul_not_mem_escapeLastQuote {cs : List Char} (hcs : '\x00' ∉ cs) :
    '\x00' ∉ escapeLastQuote cs := by
  unfold escapeLastQuote
  split
  · split <;> simp_all
  · exact hcs

/-- The literal of a string holds no NUL. -/
@[simp]
theorem holdsNul_string (s : String) : holdsNul (string s) = false := by
  have hdouble : '\x00' ∉ doubleBody s.toList := fun hnul => by
    obtain ⟨c, -, hc⟩ := List.mem_flatMap.mp hnul
    exact (nul_not_mem_spelling c).1 hc
  have hspelled : '\x00' ∉ s.toList.flatMap tripleChar := fun hnul => by
    obtain ⟨c, -, hc⟩ := List.mem_flatMap.mp hnul
    exact (nul_not_mem_spelling c).2 hc
  have htriple : '\x00' ∉ tripleBody s.toList := by
    unfold tripleBody
    rw [List.mem_reverse]
    refine nul_not_mem_escapeLastQuote ?_
    rw [List.mem_reverse]
    exact nul_not_mem_escapeTriples hspelled
  rw [string, holdsNul_ofList, List.contains_eq_mem, decide_eq_false_iff_not, stringChars]
  split <;> simp_all

/-- The literal of a list of strings holds no NUL. -/
@[simp]
theorem holdsNul_strings (items : List String) : holdsNul (strings items) = false := by
  have hitems : (items.map string).any holdsNul = false := by simp
  rewrite [strings, holdsNul_append, holdsNul_append, holdsNul_ofList, holdsNul_ofList,
    holdsNul_intercalate (holdsNul_ofList [',', ' ']) hitems]
  rfl

mutual

/-- The literal of a value holds no NUL. -/
theorem holdsNul_value (v : Json) : holdsNul (value v) = false := by
  cases v with
  | null => decide
  | bool b => cases b <;> decide
  | number n => exact (numeric_text n).1.holdsNul_eq_false
  | string s => exact holdsNul_string s
  | array items =>
      rewrite [value, holdsNul_append, holdsNul_append, holdsNul_ofList, holdsNul_ofList,
        holdsNul_intercalate (holdsNul_ofList [',', ' ']) (any_holdsNul_values items)]
      rfl
  | object members =>
      rewrite [value, holdsNul_append, holdsNul_append, holdsNul_ofList, holdsNul_ofList,
        holdsNul_intercalate (holdsNul_ofList [',', ' ']) (any_holdsNul_entries members)]
      rfl

theorem any_holdsNul_values (items : List Json) : (values items).any holdsNul = false := by
  cases items with
  | nil => rfl
  | cons v rest =>
      rw [values, List.any_cons, holdsNul_value v, any_holdsNul_values rest]
      rfl

theorem any_holdsNul_entries (members : List (String × Json)) :
    (entries members).any holdsNul = false := by
  cases members with
  | nil => rfl
  | cons member rest =>
      obtain ⟨key, v⟩ := member
      rw [entries, List.any_cons, holdsNul_append, holdsNul_append, holdsNul_string,
        holdsNul_value v, any_holdsNul_entries rest]
      decide

end

end Literal

end FlowGraph.Program
