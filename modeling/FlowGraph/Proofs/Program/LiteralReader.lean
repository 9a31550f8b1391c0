import FlowGraph.Proofs.Json.Ordered
import FlowGraph.Proofs.Program.QuotedText

/-!
# Reading literals

A reader of literals takes one value from the front of a text and leaves the
rest: a word or a number, a string, a list, or a dictionary whose last value of
a name wins.  Blanks may stand between the parts, and a comma may follow the
last one.  How a number is spelled is a parameter of the reader.

The reader counts its nested calls down from twice the length of the text; the
lemmas on its steps carry that count, and `read` hides it.

Main results:

- Theorem `readValue_value`: a reader with enough steps takes exactly the
  literal of a value.
- Theorem `read_literal`: the same without the count, together with what
  follows for strings.

Current gaps:

- How the text of a number is read is left to the caller, who has to read every number
  of the value.
-/

namespace FlowGraph

/-! ## The numbers in a value -/

namespace Json

mutual

/-- The numbers inside a value. -/
def numbers : Json → List Number
  | .number n => [n]
  | .array items => itemNumbers items
  | .object members => memberNumbers members
  | _ => []

/-- The numbers inside items. -/
def itemNumbers : List Json → List Number
  | [] => []
  | v :: rest => v.numbers ++ itemNumbers rest

/-- The numbers inside members. -/
def memberNumbers : List (String × Json) → List Number
  | [] => []
  | (_, v) :: rest => v.numbers ++ memberNumbers rest

end

theorem mem_itemNumbers {v : Json} {items : List Json} {n : Number} :
    n ∈ itemNumbers (v :: items) ↔ n ∈ v.numbers ∨ n ∈ itemNumbers items := by
  rw [itemNumbers, List.mem_append]

theorem mem_memberNumbers {key : String} {v : Json} {members : Members} {n : Number} :
    n ∈ memberNumbers ((key, v) :: members) ↔ n ∈ v.numbers ∨ n ∈ memberNumbers members := by
  rw [memberNumbers, List.mem_append]

end Json

namespace Program.Literal

/-! ## The reader -/

/-- Leave out the blanks ahead. -/
def skipBlanks (cs : List Char) : List Char := cs.dropWhile JsonToken.isBlank

/-- Whether a character belongs to a word or a number. -/
def isWordChar (c : Char) : Bool := c.isAlphanum || c = '.' || c = '+' || c = '-'

section

variable (numeral : List Char → Option Number)

/-- The value of a word: a constant or a number. -/
def wordValue? (word : List Char) : Option Json :=
  if word = "None".toList then some .null
  else if word = "True".toList then some (.bool true)
  else if word = "False".toList then some (.bool false)
  else (numeral word).map .number

/-- Read a word or a number, as long as it goes. -/
def readWord (cs : List Char) : Option (Json × List Char) :=
  (wordValue? numeral (cs.takeWhile isWordChar)).map fun v => (v, cs.dropWhile isWordChar)

mutual

/-- Read a value. -/
def readValue (fuel : Nat) (cs : List Char) : Option (Json × List Char) :=
  match fuel with
  | 0 => none
  | fuel + 1 =>
    match cs with
    | '[' :: rest =>
      (readItems fuel (skipBlanks rest)).map fun (items, rest) => (.array items, rest)
    | '\x7b' :: rest =>
      (readMembers fuel (skipBlanks rest)).map fun (pairs, rest) => (.ofPairs pairs, rest)
    | '"' :: rest =>
      (readString ('"' :: rest)).map fun (text, rest) => (.string (String.ofList text), rest)
    | cs => readWord numeral cs

/-- Read the items of a list and its closing bracket. -/
def readItems (fuel : Nat) (cs : List Char) : Option (List Json × List Char) :=
  match fuel with
  | 0 => none
  | fuel + 1 =>
    match cs with
    | ']' :: rest => some ([], rest)
    | cs => do
      let (v, rest) ← readValue fuel cs
      match skipBlanks rest with
      | ']' :: rest => some ([v], rest)
      | ',' :: rest =>
        let (items, rest) ← readItems fuel (skipBlanks rest)
        some (v :: items, rest)
      | _ => none

/-- Read the entries of a dictionary and its closing brace. -/
def readMembers (fuel : Nat) (cs : List Char) : Option (List (String × Json) × List Char) :=
  match fuel with
  | 0 => none
  | fuel + 1 =>
    match cs with
    | '\x7d' :: rest => some ([], rest)
    | cs => do
      let (key, rest) ← readString cs
      match skipBlanks rest with
      | ':' :: rest =>
        let (v, rest) ← readValue fuel (skipBlanks rest)
        match skipBlanks rest with
        | '\x7d' :: rest => some ([(String.ofList key, v)], rest)
        | ',' :: rest =>
          let (pairs, rest) ← readMembers fuel (skipBlanks rest)
          some ((String.ofList key, v) :: pairs, rest)
        | _ => none
      | _ => none

end

/-- Read one value from the front of a text, and leave the rest of the text. -/
def read (cs : List Char) : Option (Json × List Char) := readValue numeral (2 * cs.length) cs

end

/-! ## The text of a number -/

/-- Whether a character may stand in the text of a number. -/
def isNumeralChar (c : Char) : Bool := c.isDigit || c = '.' || c = 'e' || c = '+' || c = '-'

/-- A text of numeral characters. -/
def Numeric (s : String) : Prop := s.toList.all isNumeralChar = true

instance (s : String) : Decidable (Numeric s) := inferInstanceAs (Decidable (_ = true))

/-- A number is read as one word. -/
theorem Numeric.isWordChar {s : String} (h : Numeric s) : ∀ c ∈ s.toList, isWordChar c = true := by
  intro c hc
  have := List.all_eq_true.mp h c hc
  simp only [isNumeralChar, Bool.or_eq_true, decide_eq_true_eq] at this
  rcases this with (((hdigit | rfl) | rfl) | rfl) | rfl
  · simp [Literal.isWordChar, Char.isAlphanum, hdigit]
  all_goals rfl

theorem numeric_append {s t : String} (hs : Numeric s) (ht : Numeric t) : Numeric (s ++ t) := by
  unfold Numeric at hs ht ⊢
  rw [String.toList_append, List.all_append, hs, ht]
  rfl

theorem numeric_ofList {cs : List Char} (h : ∀ c ∈ cs, c.isDigit = true) :
    Numeric (String.ofList cs) := by
  refine List.all_eq_true.mpr fun c hc => ?_
  rw [String.toList_ofList] at hc
  simp [isNumeralChar, h c hc]

theorem numeric_repr (n : Nat) : Numeric n.repr := by
  rw [Nat.repr_eq_ofList_toDigits]
  exact numeric_ofList fun c hc => Nat.isDigit_of_mem_toDigits (by omega) (by omega) hc

/-- A positional numeral has numeral characters only, at least a point. -/
theorem numeric_positional {digits : List Char} (leading : Int)
    (h : ∀ c ∈ digits, c.isDigit = true) :
    Numeric (Decimal.Layout.positional digits leading) ∧
      Decimal.Layout.positional digits leading ≠ "" := by
  have hzeros : ∀ n, ∀ c ∈ List.replicate n '0', c.isDigit = true := fun n c hc => by
    rw [List.eq_of_mem_replicate hc]; rfl
  unfold Decimal.Layout.positional
  split
  · refine ⟨numeric_append (by decide) (numeric_ofList ?_), by simp⟩
    exact List.forall_mem_append.mpr ⟨hzeros _, h⟩
  · have hpadded : ∀ n, ∀ c ∈ (digits ++ List.replicate n '0').take (leading.toNat + 1),
        c.isDigit = true := fun n c hc =>
      List.forall_mem_append.mpr ⟨h, hzeros n⟩ c (List.mem_of_mem_take hc)
    have hpoint : Numeric "." := by decide
    refine ⟨numeric_append (numeric_append (numeric_ofList (hpadded _)) hpoint) ?_, by simp⟩
    split
    · decide
    · exact numeric_ofList fun c hc => h c (List.mem_of_mem_drop hc)

/-- A scientific numeral has numeral characters only, at least the mark of its exponent. -/
theorem numeric_scientific {plus : String} {digits : List Char} (leading : Int)
    (hplus : Numeric plus) (h : ∀ c ∈ digits, c.isDigit = true) :
    Numeric (Decimal.Layout.scientific plus digits leading) ∧
      Decimal.Layout.scientific plus digits leading ≠ "" := by
  have hfirst : Numeric (String.ofList (digits.take 1)) :=
    numeric_ofList fun c hc => h c (List.mem_of_mem_take hc)
  have hothers : Numeric
      (if digits.length ≤ 1 then "" else "." ++ String.ofList (digits.drop 1)) := by
    split
    · decide
    · refine numeric_append (by decide) (numeric_ofList fun c hc => ?_)
      exact h c (List.mem_of_mem_drop hc)
  have hmark : Numeric "e" := by decide
  have hsign : Numeric (if leading < 0 then "-" else plus) := by
    split
    · decide
    · exact hplus
  unfold Decimal.Layout.scientific
  refine ⟨?_, by simp⟩
  exact numeric_append (numeric_append (numeric_append (numeric_append hfirst hothers) hmark) hsign)
    (numeric_repr leading.natAbs)

/-- A number in any layout has numeral characters only, at least one. -/
theorem numeric_layout {layout : Decimal.Layout} (hplus : Numeric layout.plus)
    (x : Decimal.Binary64) : Numeric (layout.text x) ∧ layout.text x ≠ "" := by
  have hdigits : ∀ c ∈ (Decimal.shortest x.units).digits, c.isDigit = true := fun c hc =>
    Nat.isDigit_of_mem_toDigits (by omega) (by omega) hc
  have hnumeral : Numeric (layout.numeral (Decimal.shortest x.units)) ∧
      layout.numeral (Decimal.shortest x.units) ≠ "" := by
    unfold Decimal.Layout.numeral
    split
    · exact ⟨by decide, by decide⟩
    · split
      · exact numeric_positional _ hdigits
      · exact numeric_scientific _ hplus hdigits
  refine ⟨numeric_append ?_ hnumeral.1, ?_⟩
  · split <;> decide
  · exact fun h => hnumeral.2 (String.append_eq_empty_iff.mp h).2

/-- The text of a number has numeral characters only, at least one. -/
theorem numeric_text (n : Number) : Numeric n.text ∧ n.text ≠ "" := by
  cases n with
  | integer i =>
      change Numeric i.val.repr ∧ i.val.repr ≠ ""
      rw [Int.repr_eq_if]
      split
      · exact ⟨numeric_repr _, by simp⟩
      · exact ⟨numeric_append (by decide) (numeric_repr _), by simp⟩
  | real x => exact numeric_layout (by decide) x

/-! ## One step of the reader -/

/-- What may follow a literal: nothing, or a separator, a closing bracket or a line feed. -/
def Follows (rest : List Char) : Prop :=
  ∀ c, rest.head? = some c → c ∈ [',', ':', ']', '\x7d', '\n']

/-- A character that a literal starts with. -/
def startsValue (c : Char) : Bool := c = '[' || c = '\x7b' || c = '"' || isWordChar c

theorem Follows.not_quote {rest : List Char} (h : Follows rest) : rest.head? ≠ some '"' := by
  intro hquote
  have := h '"' hquote
  revert this
  decide

theorem Follows.not_word {rest : List Char} (h : Follows rest) {c : Char}
    (hc : rest.head? = some c) : isWordChar c = false := by
  have hall : [',', ':', ']', '\x7d', '\n'].all (fun c => !isWordChar c) = true := rfl
  simpa using List.all_eq_true.mp hall c (h c hc)

theorem follows_cons {c : Char} (rest : List Char) (h : c ∈ [',', ':', ']', '\x7d', '\n']) :
    Follows (c :: rest) := by
  intro d hd
  obtain rfl : c = d := Option.some.inj hd
  exact h

theorem ne_of_startsValue {c d : Char} (hc : startsValue c = true) (hd : startsValue d = false) :
    c ≠ d := by
  rintro rfl
  rw [hc] at hd
  cases hd

/-- A literal starts with no blank. -/
theorem not_blank_of_startsValue {c : Char} (h : startsValue c = true) :
    JsonToken.isBlank c = false := by
  simp only [JsonToken.isBlank, Bool.or_eq_false_iff, decide_eq_false_iff_not]
  exact ⟨⟨⟨ne_of_startsValue h rfl, ne_of_startsValue h rfl⟩, ne_of_startsValue h rfl⟩,
    ne_of_startsValue h rfl⟩

theorem skipBlanks_cons {c : Char} (rest : List Char) (h : JsonToken.isBlank c = false) :
    skipBlanks (c :: rest) = c :: rest := by
  rw [skipBlanks, List.dropWhile_cons_of_neg (by simp [h])]

/-- Blanks end where a literal starts. -/
theorem skipBlanks_space {c : Char} (rest : List Char) (h : startsValue c = true) :
    skipBlanks (' ' :: c :: rest) = c :: rest :=
  skipBlanks_cons rest (not_blank_of_startsValue h)

section

variable {numeral : List Char → Option Number}

/-- A word ends where a literal may be followed. -/
theorem readWord_append {word rest : List Char} {v : Json}
    (hword : ∀ c ∈ word, isWordChar c = true) (hrest : Follows rest)
    (hvalue : wordValue? numeral word = some v) :
    readWord numeral (word ++ rest) = some (v, rest) := by
  have hstop : rest.takeWhile isWordChar = [] ∧ rest.dropWhile isWordChar = rest := by
    cases rest with
    | nil => exact ⟨rfl, rfl⟩
    | cons c rest => simp [hrest.not_word rfl]
  rw [readWord, List.takeWhile_append_of_pos hword, List.dropWhile_append_of_pos hword,
    hstop.1, hstop.2, List.append_nil, hvalue]
  rfl

theorem readValue_word {word rest : List Char} {v : Json} (fuel : Nat)
    (hword : ∀ c ∈ word, isWordChar c = true) (hne : word ≠ []) (hrest : Follows rest)
    (hvalue : wordValue? numeral word = some v) :
    readValue numeral (fuel + 1) (word ++ rest) = some (v, rest) := by
  obtain ⟨c, others, rfl⟩ := List.exists_cons_of_ne_nil hne
  have hc : isWordChar c = true := hword c List.mem_cons_self
  have hopen : ∀ d tail, isWordChar d = false → c :: others ++ rest = d :: tail → False := by
    intro d tail hd heq
    obtain ⟨rfl, -⟩ := List.cons.inj heq
    rw [hc] at hd
    cases hd
  rw [readValue.eq_5 numeral _ fuel (fun tail => hopen '[' tail rfl)
    (fun tail => hopen '\x7b' tail rfl) (fun tail => hopen '"' tail rfl)]
  exact readWord_append hword hrest hvalue

theorem readValue_number {n : Number} {rest : List Char} (fuel : Nat) (hrest : Follows rest)
    (hn : numeral n.text.toList = some n) :
    readValue numeral (fuel + 1) (n.text.toList ++ rest) = some (.number n, rest) := by
  obtain ⟨hnumeric, hne⟩ := numeric_text n
  have hconstant : ∀ s : String, ¬ Numeric s → n.text.toList ≠ s.toList := by
    intro s hs heq
    exact hs (String.toList_inj.mp heq ▸ hnumeric)
  have hvalue : wordValue? numeral n.text.toList = some (.number n) := by
    rw [wordValue?, if_neg (hconstant _ (by decide)), if_neg (hconstant _ (by decide)),
      if_neg (hconstant _ (by decide)), hn]
    rfl
  exact readValue_word fuel hnumeric.isWordChar (by simpa using hne) hrest hvalue

theorem string_starts (s : String) : ∃ others, (string s).toList = '"' :: others := by
  rw [string, String.toList_ofList]
  unfold stringChars
  split <;> exact ⟨_, rfl⟩

theorem readValue_string (fuel : Nat) (text : String) {rest : List Char} (hrest : Follows rest) :
    readValue numeral (fuel + 1) ((string text).toList ++ rest) = some (.string text, rest) := by
  have hread := readString_string text hrest.not_quote
  obtain ⟨others, hopen⟩ := string_starts text
  rw [hopen, List.cons_append] at hread ⊢
  rw [readValue, hread]
  simp

theorem readItems_close (fuel : Nat) (rest : List Char) :
    readItems numeral (fuel + 1) (']' :: rest) = some ([], rest) := by
  rw [readItems]

theorem readMembers_close (fuel : Nat) (rest : List Char) :
    readMembers numeral (fuel + 1) ('\x7d' :: rest) = some ([], rest) := by
  rw [readMembers]

end

/-! ## The parts of a literal -/

/-- The items of a list literal, as characters. -/
def itemsText (items : List Json) : List Char := (", ".intercalate (values items)).toList

/-- The entries of a dictionary literal, as characters. -/
def entriesText (members : Members) : List Char := (", ".intercalate (entries members)).toList

/-- What follows an item of a list literal: the items after it and the bracket. -/
def afterItem (items : List Json) (rest : List Char) : List Char :=
  match items with
  | [] => ']' :: rest
  | items => ',' :: ' ' :: (itemsText items ++ ']' :: rest)

/-- What follows an entry of a dictionary literal: the entries after it and the brace. -/
def afterEntry (members : Members) (rest : List Char) : List Char :=
  match members with
  | [] => '\x7d' :: rest
  | members => ',' :: ' ' :: (entriesText members ++ '\x7d' :: rest)

theorem array_text (items : List Json) (rest : List Char) :
    (value (.array items)).toList ++ rest = '[' :: (itemsText items ++ ']' :: rest) := by
  simp [value, itemsText]

theorem object_text (members : Members) (rest : List Char) :
    (value (.object members)).toList ++ rest =
      '\x7b' :: (entriesText members ++ '\x7d' :: rest) := by
  simp [value, entriesText]

theorem itemsText_cons (v : Json) (items : List Json) (rest : List Char) :
    itemsText (v :: items) ++ ']' :: rest = (value v).toList ++ afterItem items rest := by
  cases items with
  | nil => simp [itemsText, values, afterItem]
  | cons w items =>
      simp [itemsText, values, String.intercalate_cons_cons, List.append_assoc, afterItem]

theorem entriesText_cons (key : String) (v : Json) (members : Members) (rest : List Char) :
    entriesText ((key, v) :: members) ++ '\x7d' :: rest =
      (string key).toList ++ ':' :: ' ' :: ((value v).toList ++ afterEntry members rest) := by
  cases members with
  | nil => simp [entriesText, entries, afterEntry]
  | cons m members =>
      obtain ⟨name, w⟩ := m
      simp [entriesText, entries, String.intercalate_cons_cons, List.append_assoc, afterEntry]

theorem follows_afterItem (items : List Json) (rest : List Char) :
    Follows (afterItem items rest) := by
  cases items <;> exact follows_cons _ (by decide)

theorem follows_afterEntry (members : Members) (rest : List Char) :
    Follows (afterEntry members rest) := by
  cases members <;> exact follows_cons _ (by decide)

/-- A literal starts with a bracket, a quote or a character of a word. -/
theorem value_starts (v : Json) :
    ∃ c others, (value v).toList = c :: others ∧ startsValue c = true := by
  cases v with
  | null => exact ⟨'N', ['o', 'n', 'e'], rfl, rfl⟩
  | bool b =>
      cases b
      · exact ⟨'F', ['a', 'l', 's', 'e'], rfl, rfl⟩
      · exact ⟨'T', ['r', 'u', 'e'], rfl, rfl⟩
  | number n =>
      obtain ⟨hnumeric, hne⟩ := numeric_text n
      obtain ⟨c, others, hn⟩ := List.exists_cons_of_ne_nil (by simpa using hne : n.text.toList ≠ [])
      have hc : isWordChar c = true := hnumeric.isWordChar c (by simp [hn])
      exact ⟨c, others, hn, by simp [startsValue, hc]⟩
  | string s =>
      obtain ⟨others, hs⟩ := string_starts s
      exact ⟨'"', others, hs, rfl⟩
  | array items => exact ⟨'[', itemsText items ++ [']'], by simpa using array_text items [], rfl⟩
  | object members =>
      exact ⟨'\x7b', entriesText members ++ ['\x7d'], by simpa using object_text members [], rfl⟩

theorem skipBlanks_itemsText (items : List Json) (rest : List Char) :
    skipBlanks (itemsText items ++ ']' :: rest) = itemsText items ++ ']' :: rest := by
  cases items with
  | nil => exact skipBlanks_cons rest rfl
  | cons v items =>
      obtain ⟨c, others, hv, hc⟩ := value_starts v
      rw [itemsText_cons, hv, List.cons_append, skipBlanks_cons _ (not_blank_of_startsValue hc)]

theorem skipBlanks_entriesText (members : Members) (rest : List Char) :
    skipBlanks (entriesText members ++ '\x7d' :: rest) = entriesText members ++ '\x7d' :: rest := by
  cases members with
  | nil => exact skipBlanks_cons rest rfl
  | cons m members =>
      obtain ⟨others, hkey⟩ := string_starts m.1
      rw [entriesText_cons m.1 m.2, hkey, List.cons_append, skipBlanks_cons _ rfl]

/-- An item and the items after it are shorter than all of them, and a literal is never empty. -/
theorem length_itemsText (v : Json) (items : List Json) :
    0 < (value v).toList.length ∧
      (value v).toList.length + (itemsText items).length ≤ (itemsText (v :: items)).length := by
  obtain ⟨c, others, hv, -⟩ := value_starts v
  have htext := congrArg List.length (itemsText_cons v items [])
  refine ⟨by simp [hv], ?_⟩
  cases items with
  | nil => simp [itemsText, values]
  | cons w items =>
      simp only [afterItem, List.length_append, List.length_cons] at htext
      omega

theorem length_entriesText (key : String) (v : Json) (members : Members) :
    0 < (value v).toList.length ∧
      (value v).toList.length + (entriesText members).length ≤
        (entriesText ((key, v) :: members)).length := by
  obtain ⟨c, others, hv, -⟩ := value_starts v
  have htext := congrArg List.length (entriesText_cons key v members [])
  refine ⟨by simp [hv], ?_⟩
  cases members with
  | nil =>
      simp [entriesText, entries]
      omega
  | cons m members =>
      simp only [afterEntry, List.length_append, List.length_cons] at htext
      omega

/-! ## Whole values -/

section

variable {numeral : List Char → Option Number}

/-- A value is taken with the items after it. -/
theorem readItems_cons {fuel : Nat} {v : Json} {items : List Json} {rest : List Char}
    (hread : readValue numeral fuel ((value v).toList ++ afterItem items rest) =
      some (v, afterItem items rest))
    (hnext : readItems numeral fuel (itemsText items ++ ']' :: rest) = some (items, rest)) :
    readItems numeral (fuel + 1) (itemsText (v :: items) ++ ']' :: rest) =
      some (v :: items, rest) := by
  obtain ⟨c, others, hv, hc⟩ := value_starts v
  have hopen : ∀ tail, (value v).toList ++ afterItem items rest = ']' :: tail → False := by
    intro tail heq
    rw [hv, List.cons_append] at heq
    exact ne_of_startsValue hc rfl (List.cons.inj heq).1
  rw [itemsText_cons, readItems.eq_3 numeral _ fuel hopen, hread]
  cases items with
  | nil => rfl
  | cons w items =>
      have hcomma : skipBlanks (',' :: ' ' :: (itemsText (w :: items) ++ ']' :: rest)) =
          ',' :: ' ' :: (itemsText (w :: items) ++ ']' :: rest) := skipBlanks_cons _ rfl
      have hspace : skipBlanks (' ' :: (itemsText (w :: items) ++ ']' :: rest)) =
          itemsText (w :: items) ++ ']' :: rest := skipBlanks_itemsText (w :: items) rest
      simp only [Option.bind_eq_bind, Option.bind_some, hcomma, afterItem, hspace, hnext]

/-- A name and its value are taken with the entries after them. -/
theorem readMembers_cons {fuel : Nat} {key : String} {v : Json} {members : Members}
    {rest : List Char}
    (hread : readValue numeral fuel ((value v).toList ++ afterEntry members rest) =
      some (v, afterEntry members rest))
    (hnext : readMembers numeral fuel (entriesText members ++ '\x7d' :: rest) =
      some (members, rest)) :
    readMembers numeral (fuel + 1) (entriesText ((key, v) :: members) ++ '\x7d' :: rest) =
      some ((key, v) :: members, rest) := by
  obtain ⟨d, others, hv, hd⟩ := value_starts v
  obtain ⟨cs, hkey⟩ := string_starts key
  have hname : readString ((string key).toList ++ ':' :: ' ' ::
      ((value v).toList ++ afterEntry members rest)) =
      some (key.toList, ':' :: ' ' :: ((value v).toList ++ afterEntry members rest)) :=
    readString_string key (by simp)
  have hcolon : skipBlanks (':' :: ' ' :: ((value v).toList ++ afterEntry members rest)) =
      ':' :: ' ' :: ((value v).toList ++ afterEntry members rest) := skipBlanks_cons _ rfl
  have hvalue : skipBlanks (' ' :: ((value v).toList ++ afterEntry members rest)) =
      (value v).toList ++ afterEntry members rest := by
    rw [hv, List.cons_append, skipBlanks_space _ hd]
  rw [entriesText_cons, readMembers.eq_3 numeral _ fuel (by rw [hkey]; simp), hname]
  simp only [Option.bind_eq_bind, Option.bind_some, hcolon, hvalue, hread, String.ofList_toList]
  cases members with
  | nil => rfl
  | cons m members =>
      have hcomma : skipBlanks (',' :: ' ' :: (entriesText (m :: members) ++ '\x7d' :: rest)) =
          ',' :: ' ' :: (entriesText (m :: members) ++ '\x7d' :: rest) := skipBlanks_cons _ rfl
      have hspace : skipBlanks (' ' :: (entriesText (m :: members) ++ '\x7d' :: rest)) =
          entriesText (m :: members) ++ '\x7d' :: rest := skipBlanks_entriesText (m :: members) rest
      simp only [hcomma, afterEntry, hspace, hnext, Option.bind_some]

mutual

/-- A reader with enough steps takes exactly the literal of a value. -/
theorem readValue_value (v : Json) {fuel : Nat} {rest : List Char}
    (hfuel : 2 * (value v).toList.length ≤ fuel + 1) (hordered : v.Ordered)
    (hnumbers : ∀ n ∈ v.numbers, numeral n.text.toList = some n) (hrest : Follows rest) :
    readValue numeral (fuel + 1) ((value v).toList ++ rest) = some (v, rest) := by
  cases v with
  | null => exact readValue_word fuel (List.all_eq_true.mp rfl) (List.cons_ne_nil _ _) hrest rfl
  | bool b =>
      cases b
      · exact readValue_word fuel (List.all_eq_true.mp rfl) (List.cons_ne_nil _ _) hrest rfl
      · exact readValue_word fuel (List.all_eq_true.mp rfl) (List.cons_ne_nil _ _) hrest rfl
  | number n => exact readValue_number fuel hrest (hnumbers n List.mem_cons_self)
  | string s => exact readValue_string fuel s hrest
  | array items =>
      have htext := congrArg List.length (array_text items [])
      simp only [List.append_nil, List.length_cons, List.length_append, List.length_nil] at htext
      obtain ⟨fuel, rfl⟩ : ∃ k, fuel = k + 1 := ⟨fuel - 1, by omega⟩
      have hitems : readItems numeral (fuel + 1) (itemsText items ++ ']' :: rest) =
          some (items, rest) :=
        readItems_values items (by omega) (Json.ordered_array.mp hordered) hnumbers
      rw [array_text, readValue, skipBlanks_itemsText, hitems]
      rfl
  | object members =>
      obtain ⟨hnames, hvalues⟩ := Json.ordered_object.mp hordered
      have htext := congrArg List.length (object_text members [])
      simp only [List.append_nil, List.length_cons, List.length_append, List.length_nil] at htext
      obtain ⟨fuel, rfl⟩ : ∃ k, fuel = k + 1 := ⟨fuel - 1, by omega⟩
      have hmembers : readMembers numeral (fuel + 1) (entriesText members ++ '\x7d' :: rest) =
          some (members, rest) :=
        readMembers_entries members (by omega) hvalues hnumbers
      rw [object_text, readValue, skipBlanks_entriesText, hmembers]
      simp only [Option.map_some, Json.ofPairs, Members.ofList_eq_self hnames]

/-- A reader with enough steps takes the items of a list literal and its bracket. -/
theorem readItems_values (items : List Json) {fuel : Nat} {rest : List Char}
    (hfuel : 2 * (itemsText items).length ≤ fuel) (hordered : ∀ v ∈ items, v.Ordered)
    (hnumbers : ∀ n ∈ Json.itemNumbers items, numeral n.text.toList = some n) :
    readItems numeral (fuel + 1) (itemsText items ++ ']' :: rest) = some (items, rest) := by
  cases items with
  | nil => exact readItems_close fuel rest
  | cons v items =>
      obtain ⟨hv, hitems⟩ := List.forall_mem_cons.mp hordered
      obtain ⟨hpos, hlength⟩ := length_itemsText v items
      obtain ⟨fuel, rfl⟩ : ∃ k, fuel = k + 1 := ⟨fuel - 1, by omega⟩
      have hread : readValue numeral (fuel + 1) ((value v).toList ++ afterItem items rest) =
          some (v, afterItem items rest) :=
        readValue_value v (by omega) hv
          (fun n hn => hnumbers n (Json.mem_itemNumbers.mpr (.inl hn)))
          (follows_afterItem items rest)
      have hnext : readItems numeral (fuel + 1) (itemsText items ++ ']' :: rest) =
          some (items, rest) :=
        readItems_values items (by omega) hitems
          fun n hn => hnumbers n (Json.mem_itemNumbers.mpr (.inr hn))
      exact readItems_cons hread hnext

/-- A reader with enough steps takes the entries of a dictionary literal and its brace. -/
theorem readMembers_entries (members : Members) {fuel : Nat} {rest : List Char}
    (hfuel : 2 * (entriesText members).length ≤ fuel) (hordered : ∀ m ∈ members, m.2.Ordered)
    (hnumbers : ∀ n ∈ Json.memberNumbers members, numeral n.text.toList = some n) :
    readMembers numeral (fuel + 1) (entriesText members ++ '\x7d' :: rest) =
      some (members, rest) := by
  cases members with
  | nil => exact readMembers_close fuel rest
  | cons m members =>
      obtain ⟨key, v⟩ := m
      obtain ⟨hv, hmembers⟩ := List.forall_mem_cons.mp hordered
      obtain ⟨hpos, hlength⟩ := length_entriesText key v members
      obtain ⟨fuel, rfl⟩ : ∃ k, fuel = k + 1 := ⟨fuel - 1, by omega⟩
      have hread : readValue numeral (fuel + 1) ((value v).toList ++ afterEntry members rest) =
          some (v, afterEntry members rest) :=
        readValue_value v (by omega) hv
          (fun n hn => hnumbers n (Json.mem_memberNumbers.mpr (.inl hn)))
          (follows_afterEntry members rest)
      have hnext : readMembers numeral (fuel + 1) (entriesText members ++ '\x7d' :: rest) =
          some (members, rest) :=
        readMembers_entries members (by omega) hmembers
          fun n hn => hnumbers n (Json.mem_memberNumbers.mpr (.inr hn))
      exact readMembers_cons hread hnext

end

/-- Twice the length of the text is enough for the literal at its front. -/
theorem read_value (v : Json) {rest : List Char} (hordered : v.Ordered)
    (hnumbers : ∀ n ∈ v.numbers, numeral n.text.toList = some n) (hrest : Follows rest) :
    read numeral ((value v).toList ++ rest) = some (v, rest) := by
  obtain ⟨c, others, hv, -⟩ := value_starts v
  obtain ⟨fuel, hfuel⟩ : ∃ fuel, 2 * ((value v).toList ++ rest).length = fuel + 1 :=
    ⟨2 * (others ++ rest).length + 1, by simp [hv]; omega⟩
  have henough : 2 * (value v).toList.length ≤ fuel + 1 := by
    rw [← hfuel, List.length_append]
    omega
  rw [read, hfuel]
  exact readValue_value v henough hordered hnumbers hrest

/-- A reader takes exactly the literal of a value from the front of a text, if it reads the text of
each number in the value as that number.  Different strings have different literals, and a reader
stops at the end of the literal of a string whatever the string is.  Every value that is read from
a text is ordered, by `Json.ordered_of_parse`. -/
theorem read_literal (v : Json) (rest : List Char) (hordered : v.Ordered)
    (hnumbers : ∀ n ∈ v.numbers, numeral n.text.toList = some n) (hrest : Follows rest) :
    read numeral ((value v).toList ++ rest) = some (v, rest) ∧
      (∀ s t : String, s ≠ t → string s ≠ string t) ∧
      ∀ (s : String) (after : List Char), after.head? ≠ some '"' →
        readString ((string s).toList ++ after) = some (s.toList, after) :=
  ⟨read_value v hordered hnumbers hrest, fun _ _ hne heq => hne (string_injective heq),
    fun s _ hafter => readString_string s hafter⟩

end

/-- The number that a whole text spells. -/
def wholeNumeral (cs : List Char) : Option Number :=
  match (Cursor.mk 0 cs).number with
  | .ok (n, ⟨_, []⟩) => some n
  | _ => none

/-- A nested value with runs of quotes, backslashes before quotes, control characters and both
kinds of numbers. -/
def awkwardValue : Json :=
  .object
    [("\"\"\"\"\n", .array [.null, .bool true, .number (.integer ⟨-7, by decide, by decide⟩),
        .number (.real Decimal.Binary64.two.neg), .array [], .object []]),
      ("it's \"quoted\"", .string "ends with\n\\\""),
      ("tab\tand\x01control", .string "say \"hi\"\\")]

theorem read_literal_awkwardValue :
    awkwardValue.Ordered ∧
      (∀ n ∈ awkwardValue.numbers, wholeNumeral n.text.toList = some n) ∧
      Follows ['\x7d', '"'] ∧
      read wholeNumeral ((value awkwardValue).toList ++ ['\x7d', '"']) =
        some (awkwardValue, ['\x7d', '"']) := by
  have hordered : awkwardValue.Ordered := by decide
  have hnumbers : ∀ n ∈ awkwardValue.numbers, wholeNumeral n.text.toList = some n := by
    decide +kernel
  have hrest : Follows ['\x7d', '"'] := follows_cons ['"'] (by decide)
  exact ⟨hordered, hnumbers, hrest, (read_literal awkwardValue _ hordered hnumbers hrest).1⟩

end Program.Literal

end FlowGraph
