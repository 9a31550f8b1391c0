import FlowGraph.Program.SourceText

/-!
# Reading docstrings

A reader of docstrings starts after the opening quotes.  A backslash takes the next
character with it, and the first three quotes in a row that no backslash takes close
the docstring.  The body is then read character by character, an escaped backslash
or quote as itself; what any other escape stands for is a parameter of the reader.
Before all of that, every line break of a source file becomes a line feed.

This module shows that no text leaves the docstring it is put into: the reader
stops at the quotes written after the text, and reads the text back.

Main results:

- Theorem `docstringChars_eq_replace`: the spelling is two replacements, one after
  the other.
- Theorem `scan_docstringChars`: the reader stops at the quotes after a text.
- Theorem `decode_docstringChars`: the body of a text is read back as the text.
- Theorem `unifyBreaks_docstringChars`: a text with unified line breaks is spelled
  like the text.
- Theorem `read_docstring`: all of it for the texts of a program.
-/

namespace FlowGraph.Program.Docstring

/-! ## The reader -/

/-- Find the end of a docstring: the body as it is spelled, and what follows the
closing quotes. -/
def scan : List Char → Option (List Char × List Char)
  | '\\' :: c :: rest => (scan rest).map fun (body, after) => ('\\' :: c :: body, after)
  | '"' :: '"' :: '"' :: rest => some ([], rest)
  | c :: rest => (scan rest).map fun (body, after) => (c :: body, after)
  | [] => none

section

variable (other : Char → List Char → Option (List Char × Nat))

/-- Read the body of a docstring.  Of an escape that is not one of a backslash or a
quote, `other` gives the characters it stands for and how many characters after its
first one belong to it. -/
def decode (body : List Char) : Option (List Char) :=
  match body with
  | [] => some []
  | ['\\'] => none
  | '\\' :: letter :: rest =>
    if letter = '\\' ∨ letter = '"' then (decode rest).map (letter :: ·)
    else do
      let (text, used) ← other letter rest
      let following ← decode (rest.drop used)
      some (text ++ following)
  | c :: rest => (decode rest).map (c :: ·)
termination_by body.length
decreasing_by all_goals simp; try omega

end

/-- Every line break of a source file becomes a line feed. -/
def unifyBreaks : List Char → List Char
  | '\r' :: '\n' :: rest => '\n' :: unifyBreaks rest
  | '\r' :: rest => '\n' :: unifyBreaks rest
  | c :: rest => c :: unifyBreaks rest
  | [] => []

/-- The quotes that open and close a docstring. -/
def quotes : List Char := ['"', '"', '"']

/-! ## The spelling of a text -/

theorem docstringChars_cons (c : Char) (cs : List Char) :
    docstringChars (c :: cs) = docstringChar c ++ docstringChars cs := rfl

/-- A backslash and a quote are spelled behind a backslash, and every other character as
itself. -/
theorem docstringChar_cases (c : Char) :
    (docstringChar c = ['\\', c] ∧ (c = '\\' ∨ c = '"')) ∨
      (docstringChar c = [c] ∧ c ≠ '\\' ∧ c ≠ '"') := by
  unfold docstringChar
  split
  · exact .inl ⟨rfl, .inl rfl⟩
  · exact .inl ⟨rfl, .inr rfl⟩
  · rename_i hslash hquote
    exact .inr ⟨rfl, hslash, hquote⟩

/-- Replace every occurrence of a character by a text. -/
def replace (c : Char) (text cs : List Char) : List Char :=
  cs.flatMap fun d => if d = c then text else [d]

theorem replace_append (c : Char) (text cs ds : List Char) :
    replace c text (cs ++ ds) = replace c text cs ++ replace c text ds :=
  List.flatMap_append

/-- The spelling is two replacements: of backslashes, and then of quotes, which
leaves the backslashes of the first alone. -/
theorem docstringChars_eq_replace (cs : List Char) :
    docstringChars cs = replace '"' ['\\', '"'] (replace '\\' ['\\', '\\'] cs) := by
  induction cs with
  | nil => rfl
  | cons c cs ih =>
      have hchar : docstringChar c =
          replace '"' ['\\', '"'] (replace '\\' ['\\', '\\'] [c]) := by
        rcases docstringChar_cases c with ⟨hchar, rfl | rfl⟩ | ⟨hchar, hslash, hquote⟩
        · rfl
        · rfl
        · simp [hchar, replace, hslash, hquote]
      rw [docstringChars_cons, hchar, ih, ← replace_append, ← replace_append,
        List.singleton_append]

/-! ## Finding the end -/

theorem scan_escape (c : Char) (rest : List Char) :
    scan ('\\' :: c :: rest) =
      (scan rest).map fun (body, after) => ('\\' :: c :: body, after) := by
  rw [scan]

theorem scan_raw {c : Char} (rest : List Char) (hslash : c ≠ '\\') (hquote : c ≠ '"') :
    scan (c :: rest) = (scan rest).map fun (body, after) => (c :: body, after) := by
  rw [scan] <;> simp [hslash, hquote]

/-- The reader stops at the quotes after a text, whatever follows them. -/
theorem scan_docstringChars (cs after : List Char) :
    scan (docstringChars cs ++ (quotes ++ after)) = some (docstringChars cs, after) := by
  induction cs with
  | nil => rfl
  | cons c cs ih =>
      rw [docstringChars_cons, List.append_assoc]
      rcases docstringChar_cases c with ⟨hchar, -⟩ | ⟨hchar, hslash, hquote⟩
      · rw [hchar, List.cons_append, List.singleton_append, scan_escape, ih]
        rfl
      · rw [hchar, List.singleton_append, scan_raw _ hslash hquote, ih]
        rfl

/-! ## Reading the body -/

section

variable {other : Char → List Char → Option (List Char × Nat)}

theorem decode_escape {letter : Char} (rest : List Char) (h : letter = '\\' ∨ letter = '"') :
    decode other ('\\' :: letter :: rest) = (decode other rest).map (letter :: ·) := by
  rw [decode, if_pos h]

theorem decode_raw {c : Char} (rest : List Char) (hslash : c ≠ '\\') :
    decode other (c :: rest) = (decode other rest).map (c :: ·) := by
  rw [decode] <;> simp [hslash]

/-- The body of a text is read back as the text, whatever other escapes stand for. -/
theorem decode_docstringChars (cs : List Char) : decode other (docstringChars cs) = some cs := by
  induction cs with
  | nil => rw [docstringChars, List.flatMap_nil, decode]
  | cons c cs ih =>
      rw [docstringChars_cons]
      rcases docstringChar_cases c with ⟨hchar, hescaped⟩ | ⟨hchar, hslash, -⟩
      · rw [hchar, List.cons_append, List.singleton_append, decode_escape _ hescaped, ih]
        rfl
      · rw [hchar, List.singleton_append, decode_raw _ hslash, ih]
        rfl

end

/-! ## Line breaks -/

theorem unifyBreaks_of_ne {c : Char} (rest : List Char) (h : c ≠ '\r') :
    unifyBreaks (c :: rest) = c :: unifyBreaks rest := by
  rw [unifyBreaks] <;> simp [h]

theorem unifyBreaks_return {rest : List Char} (h : rest.head? ≠ some '\n') :
    unifyBreaks ('\r' :: rest) = '\n' :: unifyBreaks rest := by
  rw [unifyBreaks]
  rintro tail rfl
  exact h rfl

/-- What is spelled before a quote starts with a line feed only if the text does. -/
theorem head?_docstringChars_ne {cs : List Char} (rest : List Char) (h : cs.head? ≠ some '\n') :
    (docstringChars cs ++ '"' :: rest).head? ≠ some '\n' := by
  cases cs with
  | nil => simp [docstringChars]
  | cons c cs =>
      rw [docstringChars_cons]
      rcases docstringChar_cases c with ⟨hchar, -⟩ | ⟨hchar, -⟩
      · simp [hchar]
      · simpa [hchar] using h

/-- A text with unified line breaks is spelled like the text, and the breaks after
it are unified apart. -/
theorem unifyBreaks_docstringChars (cs rest : List Char) :
    unifyBreaks (docstringChars cs ++ '"' :: rest) =
      docstringChars (unifyBreaks cs) ++ unifyBreaks ('"' :: rest) := by
  induction cs using unifyBreaks.induct with
  | case1 cs ih =>
      rw [unifyBreaks, docstringChars_cons '\n', List.append_assoc, ← ih]
      rfl
  | case2 cs hbreak ih =>
      have hhead : cs.head? ≠ some '\n' := fun h => by
        obtain ⟨tail, rfl⟩ := List.head?_eq_some_iff.mp h
        exact hbreak tail rfl
      have hreturn := unifyBreaks_return (head?_docstringChars_ne rest hhead)
      rw [unifyBreaks_return hhead, docstringChars_cons '\n', List.append_assoc, ← ih]
      exact hreturn
  | case3 c cs hpair hreturn ih =>
      have hne : c ≠ '\r' := fun h => hreturn h
      rw [unifyBreaks_of_ne cs hne, docstringChars_cons, docstringChars_cons, List.append_assoc,
        List.append_assoc, ← ih]
      rcases docstringChar_cases c with ⟨hchar, -⟩ | ⟨hchar, -⟩
      · have hslash : '\\' ≠ '\r' := by decide
        rw [hchar, List.cons_append, List.singleton_append, unifyBreaks_of_ne _ hslash,
          unifyBreaks_of_ne _ hne]
        rfl
      · rw [hchar, List.singleton_append, unifyBreaks_of_ne _ hne]
        rfl
  | case4 => rfl

/-! ## The texts of a program -/

/-- A text cannot leave the docstring it is put into: the reader stops at the three quotes after
its spelling and reads the text back, before line breaks are unified as well as after.  The
spelling of two texts in a row is that of the one and then of the other. -/
theorem read_docstring (other : Char → List Char → Option (List Char × Nat)) (s t : String)
    (after : List Char) :
    let source := (docstring s).toList ++ (quotes ++ after)
    scan source = some ((docstring s).toList, after) ∧
      decode other (docstring s).toList = some s.toList ∧
      (∃ body, scan (unifyBreaks source) = some (body, unifyBreaks after) ∧
        decode other body = some (unifyBreaks s.toList)) ∧
      docstring (s ++ t) = docstring s ++ docstring t ∧
      (docstring s).toList = replace '"' ['\\', '"'] (replace '\\' ['\\', '\\'] s.toList) := by
  have hspelled : (docstring s).toList = docstringChars s.toList := String.toList_ofList
  have hunified : unifyBreaks (docstringChars s.toList ++ (quotes ++ after)) =
      docstringChars (unifyBreaks s.toList) ++ (quotes ++ unifyBreaks after) :=
    unifyBreaks_docstringChars s.toList _
  have happend : docstring (s ++ t) = docstring s ++ docstring t := by
    simp [docstring, docstringChars_append]
  simp only [hspelled]
  refine ⟨scan_docstringChars _ _, decode_docstringChars _, ⟨_, ?_, decode_docstringChars _⟩,
    happend, docstringChars_eq_replace _⟩
  rw [hunified, scan_docstringChars]

/-- Quotes and backslashes at both ends, and an escape that is none. -/
example : scan ("\\\"\\\"\\\"\\\\n\\\\\"\"\"x".toList) =
    some ((docstring "\"\"\"\\n\\").toList, ['x']) := by rfl

end FlowGraph.Program.Docstring
