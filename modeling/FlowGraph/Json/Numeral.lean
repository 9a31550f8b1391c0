import FlowGraph.Json.Basic
import FlowGraph.Json.Cursor

/-!
# Numerals

A numeral without a fraction or an exponent is an exact integer when a 64-bit word holds it.
Every other numeral is read in binary64 arithmetic: the first digits that fit an unsigned word,
scaled by a power of ten.
-/

namespace FlowGraph

open Decimal (Binary64 Extended)

/-- An exponent as written. -/
structure ExponentParts where
  negative : Bool
  digits : List Char

/-- The parts of a numeral as written. -/
structure NumeralParts where
  negative : Bool
  whole : List Char
  fraction : Option (List Char)
  exponent : Option ExponentParts

/-- The value of a digit. -/
def digitValue (c : Char) : Nat := c.toNat - '0'.toNat

/-- The number that digits spell. -/
def digitsValue (digits : List Char) : Nat := digits.foldl (fun n c => n * 10 + digitValue c) 0

/-- The exponent as a number. -/
def ExponentParts.value (e : ExponentParts) : Int :=
  if e.negative then -(digitsValue e.digits : Int) else digitsValue e.digits

/-! ## Reading -/

namespace Cursor

/-- Take the whole part of a numeral: a single zero, or digits that start with another one. -/
def wholePart (c : Cursor) : Except JsonBreak (List Char × Cursor) :=
  match c.digits with
  | ('0' :: _ :: _, _) => .error ⟨.invalidNumber, c.offset + 2⟩
  | _ => c.someDigits

/-- Take a fraction if there is one. -/
def fractionPart (c : Cursor) : Except JsonBreak (Option (List Char) × Cursor) :=
  match c.rest with
  | '.' :: rest => do
    let (digits, c) ← someDigits ⟨c.offset + 1, rest⟩
    return (some digits, c)
  | _ => .ok (none, c)

/-- Take the sign of an exponent if there is one. -/
def exponentSign (c : Cursor) : Bool × Cursor :=
  match c.rest with
  | '-' :: rest => (true, ⟨c.offset + 1, rest⟩)
  | '+' :: rest => (false, ⟨c.offset + 1, rest⟩)
  | _ => (false, c)

/-- Take an exponent if there is one. -/
def exponentPart (c : Cursor) : Except JsonBreak (Option ExponentParts × Cursor) :=
  let marked (rest : List Char) : Except JsonBreak (Option ExponentParts × Cursor) := do
    let (negative, c) := exponentSign ⟨c.offset + 1, rest⟩
    let (digits, c) ← c.someDigits
    return (some ⟨negative, digits⟩, c)
  match c.rest with
  | 'e' :: rest => marked rest
  | 'E' :: rest => marked rest
  | _ => .ok (none, c)

/-- Take a minus sign if there is one. -/
def minusSign (c : Cursor) : Bool × Cursor :=
  match c.rest with
  | '-' :: rest => (true, ⟨c.offset + 1, rest⟩)
  | _ => (false, c)

/-- Take a numeral. -/
def numeralParts (c : Cursor) : Except JsonBreak (NumeralParts × Cursor) := do
  let (negative, c) := c.minusSign
  let (whole, c) ← c.wholePart
  let (fraction, c) ← c.fractionPart
  let (exponent, c) ← c.exponentPart
  return (⟨negative, whole, fraction, exponent⟩, c)

end Cursor

/-! ## Values -/

/-- The digits that an unsigned word holds, and how far the last one stands from the point. -/
structure WordDigits where
  value : Nat
  exponent : Int
  full : Bool

namespace WordDigits

/-- Take a digit before the point; once the word is full, digits only raise the exponent. -/
def takeWhole (d : WordDigits) (c : Char) : WordDigits :=
  let next := d.value * 10 + digitValue c
  if d.full || UInt64.size ≤ next then ⟨d.value, d.exponent + 1, true⟩
  else ⟨next, d.exponent, false⟩

/-- Take a digit after the point; once the word is full, digits are dropped. -/
def takeFraction (d : WordDigits) (c : Char) : WordDigits :=
  let next := d.value * 10 + digitValue c
  if d.full || UInt64.size ≤ next then ⟨d.value, d.exponent, true⟩
  else ⟨next, d.exponent - 1, false⟩

/-- The digits of a numeral.  A whole part that overran the word leaves room for the fraction to
be tried once more. -/
def ofParts (parts : NumeralParts) : WordDigits :=
  let whole := parts.whole.foldl takeWhole ⟨0, 0, false⟩
  match parts.fraction with
  | none => whole
  | some digits => digits.foldl takeFraction { whole with full := false }

end WordDigits

/-- The nearest binary64 to a power of ten. -/
def powerOfTen (k : Nat) : Extended := .ofQuotient false (Nat.pow 10 k * Decimal.unitsPerOne) 1

/-- Scale a binary64 by a power of ten, by at most `10³⁰⁸` at a time and one rounding each time.
A result past the largest number is none; a result of zero ends the scaling. -/
def scaleByTen (fuel : Nat) (x : Extended) (exponent : Int) : Option Binary64 :=
  match x with
  | .finite significand =>
    if exponent.natAbs ≤ 308 then
      let scaled :=
        if 0 ≤ exponent then x * powerOfTen exponent.natAbs
        else x.div (powerOfTen exponent.natAbs)
      match scaled with
      | .finite result => some result
      | _ => none
    else if significand.units = 0 then some significand
    else if 0 ≤ exponent then none
    else match fuel with
      | 0 => some .zero
      | fuel + 1 => scaleByTen fuel (x.div (powerOfTen 308)) (exponent + 308)
  | _ => none

namespace NumeralParts

/-- The binary64 of a numeral, unless it is out of range. -/
def real? (parts : NumeralParts) : Option Binary64 := do
  let digits := WordDigits.ofParts parts
  let start := Extended.ofQuotient false (digits.value * Decimal.unitsPerOne) 1
  let exponent := (parts.exponent.map ExponentParts.value).getD 0
  let magnitude ← scaleByTen 4 start (digits.exponent + exponent)
  return if parts.negative then magnitude.neg else magnitude

/-- The exact integer of a numeral without fraction and exponent, negative zero excepted. -/
def integer? (parts : NumeralParts) : Option WordInteger :=
  match parts.fraction, parts.exponent with
  | none, none =>
    let magnitude := digitsValue parts.whole
    if parts.negative then
      if magnitude = 0 then none else WordInteger.ofInt? (-(magnitude : Int))
    else WordInteger.ofInt? magnitude
  | _, _ => none

/-- The number of a numeral, unless it is out of range. -/
def number? (parts : NumeralParts) : Option Number :=
  match parts.integer? with
  | some i => some (.integer i)
  | none => .real <$> parts.real?

/-- How many digits are read before their number passes every signed 32-bit word, starting from
the number of the digits before; all of them when it never does. -/
def digitsInWord (before : Nat) : List Char → Nat
  | [] => 0
  | c :: rest =>
    let next := before * 10 + digitValue c
    if 0x80000000 ≤ next then 1 else digitsInWord next rest + 1

/-- The digits of the exponent that are not read because the exponent is too large already. -/
def unreadDigits (parts : NumeralParts) : Nat :=
  match parts.exponent with
  | some e => e.digits.length - digitsInWord 0 e.digits
  | none => 0

end NumeralParts

/-- Take a number.  One out of range is noticed at its end, or where its exponent grows too
large. -/
def Cursor.number (c : Cursor) : Except JsonBreak (Number × Cursor) := do
  let (parts, c) ← c.numeralParts
  match parts.number? with
  | some n => return (n, c)
  | none => .error ⟨.numberOutOfRange, c.offset - parts.unreadDigits⟩

end FlowGraph
