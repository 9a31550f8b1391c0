import FlowGraph.Decimal.Shortest

/-!
# Layouts of decimal numbers

Shortest digits are written positionally with at least one fractional digit, or in scientific
form with the point after the first digit.  A `Layout` says which powers of ten are positional
and how a positive exponent is marked.
-/

namespace FlowGraph.Decimal

/-- How numerals are laid out: positional while the leading power of ten is at least `lowest` and
below `limit`, and `plus` before a positive exponent. -/
structure Layout where
  lowest : Int
  limit : Int
  plus : String

namespace Layout

/-- Numbers in documents and generated data: `0.00001`, `1000000000000000.0`, `1e+16`. -/
def document : Layout := ⟨-5, 16, "+"⟩

/-- Numbers in generated retry settings: `0.0001`, `1e-5`, `1e16`. -/
def setting : Layout := ⟨-4, 16, ""⟩

/-- Digits with a point: the first digit has the power `leading`. -/
def positional (digits : List Char) (leading : Int) : String :=
  if leading < 0 then
    "0." ++ String.ofList (List.replicate ((-leading).toNat - 1) '0' ++ digits)
  else
    let whole := leading.toNat + 1
    let padded := digits ++ List.replicate (whole - digits.length) '0'
    let fraction := digits.drop whole
    String.ofList (padded.take whole) ++ "." ++
      (if fraction.isEmpty then "0" else String.ofList fraction)

/-- One digit, a point before the others, and the power of ten. -/
def scientific (plus : String) (digits : List Char) (leading : Int) : String :=
  String.ofList (digits.take 1) ++
    (if digits.length ≤ 1 then "" else "." ++ String.ofList (digits.drop 1)) ++ "e" ++
    (if leading < 0 then "-" else plus) ++ toString leading.natAbs

/-- The text of a numeral. -/
def numeral (layout : Layout) (d : Numeral) : String :=
  if d.significand = 0 then "0.0"
  else if layout.lowest ≤ d.leading ∧ d.leading < layout.limit then
    positional d.digits d.leading
  else scientific layout.plus d.digits d.leading

/-- The text of a number. -/
def text (layout : Layout) (x : Binary64) : String :=
  (if x.negative then "-" else "") ++ layout.numeral (shortest x.units)

end Layout

end FlowGraph.Decimal
