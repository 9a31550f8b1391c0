import FlowGraph.Decimal.Binary64

/-!
# Shortest decimal digits

The decimal text of a number shows the fewest digits that read back as that number.  For one
digit, two digits and so on up to seventeen, the two neighbours of the value on the decimal grid
of that many digits are tested against the interval of reals that round to the number; the first
grid with a hit wins, and of two hits the nearer one.

Current gaps:

- That the shortest digits read back as the number they are made of is not shown here; only the
  search for them is given.
-/

namespace FlowGraph.Decimal

/-- A decimal numeral: the digits of `significand`, scaled by `10 ^ exponent`. -/
structure Numeral where
  significand : Nat
  exponent : Int
deriving DecidableEq, Repr

namespace Numeral

/-- The digits, most significant first. -/
def digits (d : Numeral) : List Char := Nat.toDigits 10 d.significand

/-- The power of ten of the first digit. -/
def leading (d : Numeral) : Int := d.exponent + (d.digits.length - 1 : Nat)

/-- Move trailing zeros of the significand into the exponent, at most `fuel` of them. -/
def trim (fuel : Nat) (d : Numeral) : Numeral :=
  match fuel with
  | 0 => d
  | fuel + 1 =>
    if d.significand % 10 = 0 then trim fuel ⟨d.significand / 10, d.exponent + 1⟩ else d

end Numeral

/-! ## The interval that rounds to a number -/

/-- Distance from a magnitude to the next smaller number of the format; it halves just above a
power of two. -/
def gapBelow (u : Nat) : Nat :=
  if 0 < gap u ∧ u = twoPow (gap u + 52) then twoPow (gap u - 1) else twoPow (gap u)

/-- The candidate `c · 10 ^ k` written as `num / den` units, tested against the interval of reals
that round to `u` units.  The ends belong to the interval when the significand is even. -/
def roundsTo (u num den : Nat) : Bool :=
  let low := (4 * u - 2 * gapBelow u) * den
  let high := (4 * u + 2 * twoPow (gap u)) * den
  if u / twoPow (gap u) % 2 = 0 then low ≤ 4 * num && 4 * num ≤ high
  else low < 4 * num && 4 * num < high

/-! ## The search -/

/-- The power of ten at or below one of a magnitude below one: the least `k` with
`10 ^ (k + 1) * u` at least one, counted from `k`, at most `fuel` further. -/
def leadingZeros (u : Nat) (fuel k : Nat) : Nat :=
  match fuel with
  | 0 => k
  | fuel + 1 => if unitsPerOne ≤ u * Nat.pow 10 (k + 1) then k else leadingZeros u fuel (k + 1)

/-- The power of ten of the first decimal digit of a positive magnitude. -/
def leadingPower (u : Nat) : Int :=
  if unitsPerOne ≤ u then ((Nat.toDigits 10 (u / unitsPerOne)).length - 1 : Nat)
  else -(leadingZeros u 330 0 + 1 : Nat)

/-- The grid neighbour of `u` units at `10 ^ exponent` that rounds to `u`, if one does. -/
def onGrid (u : Nat) (exponent : Int) : Option Numeral :=
  let up := Nat.pow 10 exponent.toNat
  let down := Nat.pow 10 (-exponent).toNat
  let step := unitsPerOne * up
  let floor := u * down / step
  let rest := u * down % step
  let low := roundsTo u (floor * step) down
  let high := roundsTo u ((floor + 1) * step) down
  let preferLow := 2 * rest < step || (2 * rest = step && floor % 2 = 0)
  if low && (preferLow || !high) then some ⟨floor, exponent⟩
  else if high then some ⟨floor + 1, exponent⟩
  else none

/-- Try the grids of `extra` and more digits after the first, `fuel` of them. -/
def searchGrids (u : Nat) (leading : Int) (fuel extra : Nat) : Numeral :=
  match fuel with
  | 0 => ⟨0, 0⟩
  | fuel + 1 =>
    match onGrid u (leading - extra) with
    | some numeral => numeral.trim 20
    | none => searchGrids u leading fuel (extra + 1)

/-- The shortest numeral that reads back as `u` units, the nearest one of that length; zero is
the numeral `0`. -/
def shortest (u : Nat) : Numeral :=
  if u = 0 then ⟨0, 0⟩ else searchGrids u (leadingPower u) 18 0

end FlowGraph.Decimal
