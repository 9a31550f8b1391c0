import FlowGraph.Json.Token
import FlowGraph.Program.Literal

/-!
# Reading quoted strings

A reader of quoted strings takes the text between double quotes or triple
double quotes, resolves its escapes, and leaves what follows the closing
quotes.  The literal of a string is read back by it whatever follows, so no
string closes its own literal early.

Between triple quotes the escapes are written in three passes: backslashes and
control characters, then three quotes in a row, then a quote at the end.
`tripleText` is the same spelling in one pass, and the reader is compared with
that.

Main results:

- Theorem `tripleBody_eq_tripleText`: the three passes and the one pass write
  the same text.
- Theorem `readText_tripleText`: the text between triple quotes is read back up
  to its closing quotes.
- Theorem `readString_stringChars`: the literal of a string is read back
  whatever follows, unless that is a quote.
-/

namespace FlowGraph.Program.Literal

/-! ## The reader -/

/-- The character of an escape of one letter. -/
def escapedChar? : Char → Option Char
  | '\\' => some '\\'
  | '"' => some '"'
  | 'n' => some '\n'
  | 't' => some '\t'
  | 'r' => some '\r'
  | _ => none

/-- The character of an escape of four hexadecimal digits; a surrogate is none. -/
def unitChar? (a b c d : Char) : Option Char := do
  let unit ← hexUnit? a b c d
  if isHighSurrogate unit || isLowSurrogate unit then none else some (Char.ofNat unit)

/-- Whether a character may stand for itself: a line feed only between triple
quotes, a carriage return or a null character nowhere. -/
def standsRaw (triple : Bool) (c : Char) : Bool :=
  if c = '\n' then triple else !(c = '\\' || c = '"' || c = '\r' || c = '\x00')

/-- Put a character before the text that is read after it. -/
def before (c : Char) (read : Option (List Char × List Char)) :
    Option (List Char × List Char) :=
  read.map fun (text, rest) => (c :: text, rest)

/-- Read a string after its opening quotes, up to its closing ones. -/
def readText (triple : Bool) : List Char → Option (List Char × List Char)
  | '\\' :: 'u' :: a :: b :: c :: d :: rest =>
    (unitChar? a b c d).bind fun char => before char (readText triple rest)
  | '\\' :: letter :: rest =>
    (escapedChar? letter).bind fun char => before char (readText triple rest)
  | '"' :: rest =>
    if triple then
      match rest with
      | '"' :: '"' :: rest => some ([], rest)
      | _ => before '"' (readText triple rest)
    else some ([], rest)
  | c :: rest => if standsRaw triple c then before c (readText triple rest) else none
  | [] => none

/-- Read a string; three quotes always open a triple-quoted one. -/
def readString : List Char → Option (List Char × List Char)
  | '"' :: '"' :: '"' :: rest => readText true rest
  | '"' :: rest => readText false rest
  | _ => none

@[simp]
theorem before_some (c : Char) (text rest : List Char) :
    before c (some (text, rest)) = some (c :: text, rest) := rfl

theorem readText_unit (triple : Bool) {a b c d char : Char} (rest : List Char)
    (h : unitChar? a b c d = some char) :
    readText triple ('\\' :: 'u' :: a :: b :: c :: d :: rest) =
      before char (readText triple rest) := by
  simp [readText, h]

theorem readText_escape (triple : Bool) {letter char : Char} (rest : List Char)
    (h : escapedChar? letter = some char) :
    readText triple ('\\' :: letter :: rest) = before char (readText triple rest) := by
  have hletter : letter ≠ 'u' := by
    rintro rfl
    cases h
  rw [readText.eq_2]
  · simp [h]
  · intro a b c d rest' heq
    exact absurd heq hletter

theorem readText_raw {triple : Bool} {c : Char} (rest : List Char)
    (h : standsRaw triple c = true) :
    readText triple (c :: rest) = before c (readText triple rest) := by
  have hne : c ≠ '\\' ∧ c ≠ '"' := by
    constructor <;> rintro rfl <;> simp [standsRaw] at h
  rw [readText.eq_5 _ _ _ (fun _ _ _ _ _ heq _ => hne.1 heq) (fun _ _ heq _ => hne.1 heq) hne.2,
    if_pos h]

/-- Three quotes close a triple-quoted string. -/
theorem readText_close (rest : List Char) :
    readText true ('"' :: '"' :: '"' :: rest) = some ([], rest) := by
  simp [readText]

/-- Fewer quotes stand for themselves in a triple-quoted string. -/
theorem readText_quote {rest : List Char} (h : ¬ ['"', '"'] <+: rest) :
    readText true ('"' :: rest) = before '"' (readText true rest) := by
  have hopen : ∀ tail, rest = '"' :: '"' :: tail → False := by
    rintro tail rfl
    exact h ⟨tail, rfl⟩
  rw [readText.eq_4 _ _ hopen, if_pos rfl]

/-- One quote closes a double-quoted string. -/
theorem readText_closeDouble {rest : List Char} (h : rest.head? ≠ some '"') :
    readText false ('"' :: rest) = some ([], rest) := by
  have hopen : ∀ tail, rest = '"' :: '"' :: tail → False := by
    rintro tail rfl
    exact h rfl
  rw [readText.eq_4 _ _ hopen, if_neg Bool.false_ne_true]

/-! ## Escapes -/

theorem hexDigit?_hexChar (n : Nat) : hexDigit? (Json.hexChar n) = some (n % 16) := by
  have hdigits : ∀ k < 16, hexDigit? (Nat.digitChar k) = some k := by decide
  exact hdigits (n % 16) (Nat.mod_lt n (by omega))

theorem hexUnit?_fourHex {n : Nat} (h : n < 0x10000) :
    hexUnit? (Json.hexChar (n / 4096)) (Json.hexChar (n / 256)) (Json.hexChar (n / 16))
      (Json.hexChar n) = some n := by
  have hsum : (n / 4096 % 16 * 16 + n / 256 % 16) * 256 + n / 16 % 16 * 16 + n % 16 = n := by
    omega
  simp [hexUnit?, hexDigit?_hexChar, hsum]

/-- A control character is read back from its hexadecimal escape. -/
theorem unitChar?_fourHex {c : Char} (h : Text.isControl c = true) :
    unitChar? (Json.hexChar (c.toNat / 4096)) (Json.hexChar (c.toNat / 256))
      (Json.hexChar (c.toNat / 16)) (Json.hexChar c.toNat) = some c := by
  have hlow : c.toNat < 0xA0 := by
    simp only [Text.isControl, Bool.or_eq_true, Bool.and_eq_true, decide_eq_true_eq] at h
    omega
  have hwhole : isHighSurrogate c.toNat = false ∧ isLowSurrogate c.toNat = false := by
    simp only [isHighSurrogate, isLowSurrogate, Bool.and_eq_false_iff, decide_eq_false_iff_not]
    omega
  simp [unitChar?, hexUnit?_fourHex (by omega : c.toNat < 0x10000), hwhole]

/-- A character other than a backslash, a quote or a line feed is read back from its spelling. -/
theorem readText_plainChar (triple : Bool) {c : Char} (rest : List Char) (hslash : c ≠ '\\')
    (hquote : c ≠ '"') (hline : c ≠ '\n') :
    readText triple (plainChar c ++ rest) = before c (readText triple rest) := by
  unfold plainChar
  split
  · exact readText_escape triple rest rfl
  · exact readText_escape triple rest rfl
  next htab hreturn =>
    split
    next hcontrol => exact readText_unit triple rest (unitChar?_fourHex hcontrol)
    next hcontrol =>
      have hnull : c ≠ '\x00' := by
        rintro rfl
        exact hcontrol rfl
      have hreturn : c ≠ '\r' := hreturn
      exact readText_raw rest (by simp [standsRaw, hline, hslash, hquote, hreturn, hnull])

/-! ## Double quotes -/

theorem readText_doubleChar (c : Char) (rest : List Char) :
    readText false (doubleChar c ++ rest) = before c (readText false rest) := by
  unfold doubleChar
  split
  · exact readText_escape false rest rfl
  · exact readText_escape false rest rfl
  · exact readText_escape false rest rfl
  next hslash hquote hline => exact readText_plainChar false rest hslash hquote hline

/-- The text between double quotes is read back up to its closing quote. -/
theorem readText_doubleBody (cs : List Char) {rest : List Char} (h : rest.head? ≠ some '"') :
    readText false (doubleBody cs ++ '"' :: rest) = some (cs, rest) := by
  induction cs with
  | nil => exact readText_closeDouble h
  | cons c cs ih =>
      rw [doubleBody, List.flatMap_cons, List.append_assoc, readText_doubleChar, ← doubleBody, ih,
        before_some]

/-- The text after the opening quote of a double-quoted string makes no triple quote of it. -/
theorem not_quotes_doubleBody (cs : List Char) {rest : List Char} (h : rest.head? ≠ some '"') :
    ¬ ['"', '"'] <+: doubleBody cs ++ '"' :: rest := by
  cases cs with
  | nil =>
      rintro ⟨tail, heq⟩
      obtain ⟨-, rfl⟩ := List.cons.inj heq
      exact h rfl
  | cons c cs =>
      have hhead : (doubleChar c).head? ≠ some '"' ∧ doubleChar c ≠ [] := by
        unfold doubleChar plainChar
        repeat' split
        all_goals simp_all
      obtain ⟨first, others, heq⟩ := List.exists_cons_of_ne_nil hhead.2
      rw [doubleBody, List.flatMap_cons, heq, List.cons_append, List.cons_append,
        List.cons_prefix_cons]
      rintro ⟨rfl, -⟩
      exact hhead.1 (by rw [heq]; rfl)

/-! ## Triple quotes in one pass -/

/-- The text between triple quotes, written in one pass. -/
def tripleText : List Char → List Char
  | '"' :: '"' :: '"' :: rest => ['\\', '"', '\\', '"', '\\', '"'] ++ tripleText rest
  | ['"'] => ['\\', '"']
  | c :: rest => tripleChar c ++ tripleText rest
  | [] => []

/-! ### The spelling of one character -/

theorem tripleChar_quote : tripleChar '"' = ['"'] := rfl

theorem hexChar_ne (n : Nat) : Json.hexChar n ≠ '"' ∧ Json.hexChar n ≠ '\\' := by
  have hdigits : ∀ k < 16, Nat.digitChar k ≠ '"' ∧ Nat.digitChar k ≠ '\\' := by decide
  exact hdigits (n % 16) (Nat.mod_lt n (by omega))

theorem tripleChar_ne_nil (c : Char) : tripleChar c ≠ [] := by
  unfold tripleChar plainChar
  repeat' split
  all_goals simp

theorem quote_not_mem_tripleChar {c : Char} (h : c ≠ '"') : '"' ∉ tripleChar c := by
  unfold tripleChar plainChar fourHex
  repeat' split
  all_goals simp [(hexChar_ne _).1.symm, h.symm]

/-- The spelling of a character other than a quote starts with no quote. -/
theorem tripleChar_head {c : Char} (h : c ≠ '"') :
    ∃ first others, tripleChar c = first :: others ∧ first ≠ '"' := by
  obtain ⟨first, others, heq⟩ := List.exists_cons_of_ne_nil (tripleChar_ne_nil c)
  refine ⟨first, others, heq, fun hfirst => quote_not_mem_tripleChar h ?_⟩
  rw [heq, hfirst]
  exact List.mem_cons_self

theorem readText_tripleChar {c : Char} (rest : List Char) (h : c ≠ '"') :
    readText true (tripleChar c ++ rest) = before c (readText true rest) := by
  unfold tripleChar
  split
  · exact readText_escape true rest rfl
  · exact readText_raw rest rfl
  next hslash hline => exact readText_plainChar true rest hslash h hline

/-! ### The quote at the end -/

/-- Escape an unescaped quote at the end of a body given first character first. -/
def escapeEnd (body : List Char) : List Char := (escapeLastQuote body.reverse).reverse

/-- No backslash at the end of the text escapes what follows it. -/
def Settled (text : List Char) : Prop :=
  (text.reverse.takeWhile (· = '\\')).length % 2 = 0

instance (text : List Char) : Decidable (Settled text) := inferInstanceAs (Decidable (_ = _))

/-- Backslashes are counted in pairs, so an even number of them further on changes nothing. -/
theorem takeWhile_append_mod_two {p : Char → Bool} (xs : List Char) {ys : List Char}
    (h : (ys.takeWhile p).length % 2 = 0) :
    ((xs ++ ys).takeWhile p).length % 2 = (xs.takeWhile p).length % 2 := by
  induction xs with
  | nil => simpa using h
  | cons x xs ih =>
      cases hx : p x
      · simp [hx]
      · simp only [List.cons_append, List.takeWhile_cons, hx, if_true, List.length_cons]
        omega

theorem settled_tripleChar (c : Char) : Settled (tripleChar c) := by
  unfold Settled tripleChar plainChar fourHex
  repeat' split
  all_goals simp_all [(hexChar_ne _).2]

/-- A text that ends with no quote keeps its end. -/
theorem escapeEnd_tripleChar {c : Char} (h : c ≠ '"') :
    escapeEnd (tripleChar c) = tripleChar c := by
  rw [escapeEnd, escapeLastQuote.eq_2, List.reverse_reverse]
  intro others heq
  refine quote_not_mem_tripleChar h (List.mem_reverse.mp ?_)
  rw [heq]
  exact List.mem_cons_self

/-- Only the last part of a body decides how the body ends. -/
theorem escapeEnd_append {text body : List Char} (htext : Settled text)
    (hend : body = [] → escapeEnd text = text) :
    escapeEnd (text ++ body) = text ++ escapeEnd body := by
  rcases List.eq_nil_or_concat body with rfl | ⟨others, last, rfl⟩
  · simpa [escapeEnd, escapeLastQuote] using hend rfl
  · simp only [escapeEnd, List.concat_eq_append, List.reverse_append, List.reverse_cons,
      List.reverse_nil, List.nil_append, List.cons_append]
    by_cases hlast : last = '"'
    · subst hlast
      have hcount := takeWhile_append_mod_two others.reverse htext
      rw [escapeLastQuote, escapeLastQuote, hcount]
      split <;> simp
    · rw [escapeLastQuote.eq_2 _ (by simp [hlast]), escapeLastQuote.eq_2 _ (by simp [hlast])]
      simp

/-! ### Three quotes in a row -/

theorem escapeTriples_append {text : List Char} (body : List Char) (h : '"' ∉ text) :
    escapeTriples (text ++ body) = text ++ escapeTriples body := by
  induction text with
  | nil => rfl
  | cons c text ih =>
      obtain ⟨hc, htext⟩ : ¬ '"' = c ∧ '"' ∉ text := by simpa using h
      rw [List.cons_append, escapeTriples.eq_2 _ _ fun _ heq _ => hc heq.symm, ih htext]
      rfl

theorem escapeTriples_ne_nil {text : List Char} (h : text ≠ []) : escapeTriples text ≠ [] := by
  unfold escapeTriples
  split <;> simp_all

/-- Quotes at the start of the spelling are quotes at the start of the string. -/
theorem quotes_of_spelling (n : Nat) {cs : List Char}
    (h : List.replicate n '"' <+: cs.flatMap tripleChar) : List.replicate n '"' <+: cs := by
  induction n generalizing cs with
  | zero => exact List.nil_prefix
  | succ n ih =>
      cases cs with
      | nil => simp [List.replicate_succ] at h
      | cons c cs =>
          rw [List.flatMap_cons] at h
          by_cases hc : c = '"'
          · subst hc
            rw [tripleChar_quote, List.singleton_append, List.replicate_succ,
              List.cons_prefix_cons] at h
            rw [List.replicate_succ, List.cons_prefix_cons]
            exact ⟨rfl, ih h.2⟩
          · obtain ⟨first, others, heq, hfirst⟩ := tripleChar_head hc
            rw [heq, List.cons_append, List.replicate_succ, List.cons_prefix_cons] at h
            exact absurd h.1.symm hfirst

/-- The three passes and the one pass write the same text. -/
theorem tripleBody_eq_tripleText (cs : List Char) : tripleBody cs = tripleText cs := by
  change escapeEnd (escapeTriples (cs.flatMap tripleChar)) = tripleText cs
  induction cs using tripleText.induct with
  | case1 rest ih =>
      have hsix : Settled ['\\', '"', '\\', '"', '\\', '"'] := by decide
      have hescape : escapeTriples (('"' :: '"' :: '"' :: rest).flatMap tripleChar) =
          ['\\', '"', '\\', '"', '\\', '"'] ++ escapeTriples (rest.flatMap tripleChar) := by
        simp [tripleChar_quote, escapeTriples]
      rw [hescape, escapeEnd_append hsix fun _ => by decide, ih, tripleText]
  | case2 => decide
  | case3 c rest hthree hsingle ih =>
      rw [tripleText.eq_3 _ _ hthree hsingle, ← ih, List.flatMap_cons]
      by_cases hc : c = '"'
      · subst hc
        have hbody : escapeTriples (rest.flatMap tripleChar) ≠ [] := by
          refine escapeTriples_ne_nil fun hnil => ?_
          obtain ⟨first, others, rfl⟩ := List.exists_cons_of_ne_nil (hsingle rfl)
          exact tripleChar_ne_nil first (List.flatMap_eq_nil_iff.mp hnil first List.mem_cons_self)
        have hescape : escapeTriples ('"' :: rest.flatMap tripleChar) =
            '"' :: escapeTriples (rest.flatMap tripleChar) := by
          refine escapeTriples.eq_2 _ _ fun tail _ heq => ?_
          obtain ⟨tail', htail⟩ := quotes_of_spelling 2 ⟨tail, heq.symm⟩
          exact hthree tail' rfl htail.symm
        rw [tripleChar_quote, List.singleton_append, hescape]
        exact escapeEnd_append (by decide : Settled ['"']) fun h => absurd h hbody
      · rw [escapeTriples_append _ (quote_not_mem_tripleChar hc),
          escapeEnd_append (settled_tripleChar c) fun _ => escapeEnd_tripleChar hc]
  | case4 => rfl

/-! ### Reading it back -/

theorem tripleText_cons {c : Char} (cs : List Char) (h : c ≠ '"') :
    tripleText (c :: cs) = tripleChar c ++ tripleText cs :=
  tripleText.eq_3 c cs (fun _ heq _ => h heq) fun heq _ => h heq

/-- A spelling starts with two quotes only if the string does. -/
theorem not_quotes_tripleText {cs : List Char} (hne : cs ≠ []) (h : ¬ ['"', '"'] <+: cs)
    (rest : List Char) : ¬ ['"', '"'] <+: tripleText cs ++ rest := by
  -- The first character that is no quote spells itself without one.
  have hstart : ∀ (c : Char) (cs rest : List Char), c ≠ '"' →
      ¬ ['"'] <+: tripleText (c :: cs) ++ rest := by
    intro c cs rest hc hprefix
    obtain ⟨first, others, heq, hfirst⟩ := tripleChar_head hc
    rw [tripleText_cons cs hc, heq, List.cons_append, List.cons_append,
      List.cons_prefix_cons] at hprefix
    exact hfirst hprefix.1.symm
  obtain ⟨c, cs, rfl⟩ := List.exists_cons_of_ne_nil hne
  by_cases hc : c = '"'
  · subst hc
    cases cs with
    | nil => simp [tripleText]
    | cons d cs =>
        have hd : d ≠ '"' := by
          rintro rfl
          exact h ⟨cs, rfl⟩
        rw [tripleText.eq_3 _ _ (by simp [hd]) (by simp), tripleChar_quote, List.cons_append,
          List.cons_append, List.cons_prefix_cons]
        exact fun hprefix => hstart d cs rest hd hprefix.2
  · exact fun hprefix => hstart c cs rest hc ((List.prefix_append ['"'] ['"']).trans hprefix)

/-- The text between triple quotes is read back up to its closing quotes. -/
theorem readText_tripleText (cs rest : List Char) :
    readText true (tripleText cs ++ ['"', '"', '"'] ++ rest) = some (cs, rest) := by
  induction cs using tripleText.induct with
  | case1 cs ih =>
      simp only [tripleText, List.append_assoc, List.cons_append, List.nil_append] at ih ⊢
      rw [readText_escape true _ rfl, readText_escape true _ rfl, readText_escape true _ rfl, ih]
      rfl
  | case2 =>
      simp only [tripleText, List.cons_append, List.nil_append]
      rw [readText_escape true _ rfl, readText_close]
      rfl
  | case3 c cs hthree hsingle ih =>
      rw [tripleText.eq_3 _ _ hthree hsingle, List.append_assoc, List.append_assoc]
      rw [List.append_assoc] at ih
      by_cases hc : c = '"'
      · subst hc
        have hopen : ¬ ['"', '"'] <+: cs := by
          rintro ⟨tail, rfl⟩
          exact hthree tail rfl rfl
        rw [tripleChar_quote, List.singleton_append,
          readText_quote (not_quotes_tripleText (hsingle rfl) hopen _), ih, before_some]
      · rw [readText_tripleChar _ hc, ih, before_some]
  | case4 => exact readText_close rest

/-! ## Whole literals -/

theorem readString_double {text : List Char} (h : ¬ ['"', '"'] <+: text) :
    readString ('"' :: text) = readText false text := by
  refine readString.eq_2 text fun rest heq => h ⟨rest, heq.symm⟩

/-- The literal of a string is read back whatever follows, unless that is a quote. -/
theorem readString_stringChars (cs : List Char) {rest : List Char} (h : rest.head? ≠ some '"') :
    readString (stringChars cs ++ rest) = some (cs, rest) := by
  unfold stringChars
  split
  · calc readString (['"', '"', '"'] ++ tripleBody cs ++ ['"', '"', '"'] ++ rest)
        = readText true (tripleText cs ++ ['"', '"', '"'] ++ rest) := by
          rw [← tripleBody_eq_tripleText]; rfl
      _ = some (cs, rest) := readText_tripleText cs rest
  · calc readString (['"'] ++ doubleBody cs ++ ['"'] ++ rest)
        = readString ('"' :: (doubleBody cs ++ '"' :: rest)) := by simp
      _ = readText false (doubleBody cs ++ '"' :: rest) :=
          readString_double (not_quotes_doubleBody cs h)
      _ = some (cs, rest) := readText_doubleBody cs h

theorem readString_string (s : String) {rest : List Char} (h : rest.head? ≠ some '"') :
    readString ((string s).toList ++ rest) = some (s.toList, rest) := by
  rw [string, String.toList_ofList, readString_stringChars s.toList h]

/-- Different strings have different literals. -/
theorem string_injective {s t : String} (h : string s = string t) : s = t := by
  have hs := @readString_string s [] (by simp)
  rw [h, readString_string t (by simp)] at hs
  exact String.toList_inj.mp (Prod.mk.inj (Option.some.inj hs)).1.symm

end FlowGraph.Program.Literal
