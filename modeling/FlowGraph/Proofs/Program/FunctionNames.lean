import FlowGraph.Proofs.Words
import FlowGraph.Proofs.Program.Names

/-!
# Names of functions

The function of a node type is named after the type, which may be any text.  Only
lower-case ASCII letters and digits survive, cut into words and joined by
underscores, and a fixed word stands before them.  This module shows that whatever
the type, the name is an identifier of the generated language, and stays one when
it is numbered.

Main results:

- Theorem `functionChar_of_mem_snake`: what survives of a text.
- Theorem `isFunctionName_functionName`: the name of every type is well formed.
- Theorem `IsFunctionName.candidate`: so are its numbered forms.
- Theorem `IsFunctionName.isIdentifier`: a well-formed name is an identifier.
-/

namespace FlowGraph

namespace Program

/-! ## Characters of a name -/

/-- A lower-case ASCII letter or a digit. -/
def isLowerOrDigit (c : Char) : Bool := c.isLower || c.isDigit

/-- A lower-case ASCII letter, a digit or an underscore. -/
def isFunctionChar (c : Char) : Bool := isLowerOrDigit c || c = '_'

/-- An ASCII letter is in upper or in lower case. -/
theorem isAlphanum_eq (c : Char) : c.isAlphanum = (c.isUpper || c.isLower || c.isDigit) := rfl

/-- The lower-case form of a letter is not upper case. -/
theorem isUpper_toLower (c : Char) : c.toLower.isUpper = false := by
  unfold Char.toLower
  split
  · rename_i hupper
    have hcode : 65 ≤ c.val.toNat ∧ c.val.toNat ≤ 90 := hupper
    have hlower : (c.val + ('a'.val - 'A'.val)).toNat = c.val.toNat + 32 := by
      have hshift : ('a'.val - 'A'.val).toNat = 32 := rfl
      rw [UInt32.toNat_add]
      omega
    refine decide_eq_false ?_
    rintro ⟨-, hle⟩
    have hle : (c.val + ('a'.val - 'A'.val)).toNat ≤ 90 := hle
    omega
  · rename_i hother
    exact decide_eq_false hother

/-- No lower-case form is an upper-case ASCII letter. -/
theorem isUpper_of_mem_lowerCase {c d : Char} (hc : c ∈ lowerCase d) : c.isUpper = false := by
  unfold lowerCase at hc
  split at hc
  · rcases List.mem_cons.mp hc with rfl | hc
    · decide
    · obtain rfl := List.mem_singleton.mp hc
      decide
  · split at hc
    · obtain rfl := List.mem_singleton.mp hc
      decide
    · obtain rfl := List.mem_singleton.mp hc
      exact isUpper_toLower d

/-- The words of a text in lower case are made of lower-case letters and digits. -/
theorem isLowerOrDigit_of_mem_words {text word : List Char} {c : Char}
    (hword : word ∈ Text.words (!isNameChar ·) (text.flatMap lowerCase)) (hc : c ∈ word) :
    isLowerOrDigit c = true := by
  obtain ⟨hletter, hname⟩ := Text.mem_of_mem_split (List.mem_filter.mp hword).1 hc
  obtain ⟨source, -, hlower⟩ := List.mem_flatMap.mp hletter
  have halphanum : c.isAlphanum = true := by simpa [isNameChar] using hname
  rw [isAlphanum_eq, isUpper_of_mem_lowerCase hlower, Bool.false_or] at halphanum
  exact halphanum

/-- Lower-case letters, digits and underscores are all that survives of a text. -/
theorem functionChar_of_mem_snake {text : List Char} {c : Char} (hc : c ∈ snake text) :
    isFunctionChar c = true := by
  have hjoined : ∀ d ∈ ['_'].intercalate
      (Text.words (!isNameChar ·) (text.flatMap lowerCase)), isFunctionChar d = true := by
    intro d hd
    rcases Text.mem_intercalate hd with hseparator | ⟨piece, hpiece, hd⟩
    · rw [List.mem_singleton.mp hseparator]
      rfl
    · simp [isFunctionChar, isLowerOrDigit_of_mem_words hpiece hd]
  unfold snake at hc
  dsimp only at hc
  split at hc
  · rename_i first rest hsplit
    split at hc
    · rcases List.mem_cons.mp hc with rfl | hc
      · rfl
      · exact hjoined c hc
    · exact hjoined c hc
  · contradiction

/-! ## Well-formed names -/

/-- A function name: a fixed word before lower-case letters, digits and underscores, at least one
of them a letter or a digit. -/
def IsFunctionName (name : String) : Prop :=
  ∃ cs : List Char, name = "execute_" ++ String.ofList cs ∧
    (∀ c ∈ cs, isFunctionChar c = true) ∧ ∃ c ∈ cs, isLowerOrDigit c = true

/-- What is left of a text without its leading underscores begins with another character. -/
theorem head_ne_of_dropWhile {cs rest : List Char} {c : Char}
    (h : cs.dropWhile (fun d => decide (d = '_')) = c :: rest) : c ≠ '_' := by
  have hhead := List.head?_dropWhile_not (fun d => decide (d = '_')) cs
  rw [h] at hhead
  simpa using hhead

/-- The function of every node type has a well-formed name. -/
theorem isFunctionName_functionName (typeTag : String) : IsFunctionName (functionName typeTag) := by
  unfold functionName
  cases hrest : (snake (lastSegment typeTag.toList)).dropWhile (fun c => decide (c = '_')) with
  | nil =>
      have hchars : "activity".toList.all isFunctionChar = true := rfl
      exact ⟨"activity".toList, rfl, List.all_eq_true.mp hchars, 'a', List.mem_cons_self, rfl⟩
  | cons c cs =>
      have hchars : ∀ d ∈ c :: cs, isFunctionChar d = true := fun d hd =>
        functionChar_of_mem_snake ((List.dropWhile_suffix _).subset (hrest ▸ hd))
      refine ⟨c :: cs, rfl, hchars, c, List.mem_cons_self, ?_⟩
      simpa [isFunctionChar, head_ne_of_dropWhile hrest] using hchars c List.mem_cons_self

/-- A number is written in digits. -/
theorem isDigit_of_mem_toString {n : Nat} {c : Char} (hc : c ∈ (toString n).toList) :
    c.isDigit = true := by
  have hrepr : toString n = String.ofList (Nat.toDigits 10 n) := Nat.repr_eq_ofList_toDigits
  rw [hrepr, String.toList_ofList] at hc
  exact Nat.isDigit_of_mem_toDigits (by omega) (by omega) hc

/-- A candidate is its base with an underscore and digits after it, if anything. -/
theorem exists_toList_candidate (base : String) (number : Nat) :
    ∃ tail, (candidate base number).toList = base.toList ++ tail ∧
      ∀ c ∈ tail, c = '_' ∨ c.isDigit = true := by
  unfold candidate
  split
  · exact ⟨[], (List.append_nil _).symm, fun c hc => nomatch hc⟩
  · exact ⟨'_' :: (toString number).toList, by simp,
      List.forall_mem_cons.mpr ⟨.inl rfl, fun c hc => .inr (isDigit_of_mem_toString hc)⟩⟩

/-- A numbered form of a well-formed name is well formed. -/
theorem IsFunctionName.candidate {base : String} (h : IsFunctionName base) (number : Nat) :
    IsFunctionName (Program.candidate base number) := by
  obtain ⟨cs, rfl, hchars, c, hc, hletter⟩ := h
  obtain ⟨tail, htail, hnumbers⟩ := exists_toList_candidate ("execute_" ++ String.ofList cs) number
  refine ⟨cs ++ tail, ?_, List.forall_mem_append.mpr ⟨hchars, fun d hd => ?_⟩, c,
    List.mem_append_left _ hc, hletter⟩
  · apply String.toList_injective
    simp [htail]
  · rcases hnumbers d hd with rfl | hdigit
    · rfl
    · simp [isFunctionChar, isLowerOrDigit, hdigit]

/-- The words that the generated language keeps for itself. -/
def reservedWords : List String :=
  ["False", "None", "True", "and", "as", "assert", "async", "await", "break", "class", "continue",
    "def", "del", "elif", "else", "except", "finally", "for", "from", "global", "if", "import",
    "in", "is", "lambda", "nonlocal", "not", "or", "pass", "raise", "return", "try", "while",
    "with", "yield"]

/-- An identifier of the generated language: ASCII letters, digits and underscores, without a
digit in front, and no reserved word. -/
def IsIdentifier (name : String) : Prop :=
  (∃ c cs, name.toList = c :: cs ∧ (c.isAlpha || c = '_') = true ∧
    ∀ d ∈ cs, (d.isAlphanum || d = '_') = true) ∧ name ∉ reservedWords

/-- A well-formed function name is an identifier. -/
theorem IsFunctionName.isIdentifier {name : String} (h : IsFunctionName name) :
    IsIdentifier name := by
  obtain ⟨cs, rfl, hchars, -⟩ := h
  have hsplit : ("execute_" ++ String.ofList cs).toList = 'e' :: ("xecute_".toList ++ cs) := by
    simp
  have hfixed : "xecute_".toList.all (fun d => d.isAlphanum || d = '_') = true := rfl
  constructor
  · refine ⟨'e', _, hsplit, by decide, ?_⟩
    intro d hd
    rcases List.mem_append.mp hd with hd | hd
    · exact List.all_eq_true.mp hfixed d hd
    · have hd := hchars d hd
      simp only [isFunctionChar, isLowerOrDigit, Bool.or_eq_true] at hd
      rcases hd with (hlower | hdigit) | hunderscore
      · simp [isAlphanum_eq, hlower]
      · simp [isAlphanum_eq, hdigit]
      · simp [hunderscore]
  · -- No reserved word has the three letters that every function name begins with.
    have hother : reservedWords.all (fun word => word.toList.take 3 ≠ ['e', 'x', 'e']) = true :=
      rfl
    intro hmem
    have hne := List.all_eq_true.mp hother _ hmem
    rw [hsplit] at hne
    simp at hne

end Program

end FlowGraph
