import FlowGraph.Definition.Options

/-!
# Backoff

The wait after an attempt grows by the backoff coefficient with every attempt, up to the maximum
interval.  It is computed in binary64 seconds and given in whole nanoseconds.

Current gaps:

- A power is found by squaring, from the lowest bit of the exponent on, with every product rounded;
  a host that multiplies in another order may round it otherwise.
-/

namespace FlowGraph

open Decimal (Binary64 Extended)

/-- Nanoseconds in a second. -/
def nanosPerSecond : Nat := 1000000000

/-- The longest wait: the largest unsigned word of seconds, and the rest of a second. -/
def longestWait : Nat := UInt64.size * nanosPerSecond - 1

/-- The smaller of two results; an undefined one gives way to the other. -/
def Decimal.Extended.smaller (x y : Extended) : Extended :=
  match x, y with
  | .undefined, _ => y
  | _, .undefined => x
  | .infinite negative, _ => if negative then x else y
  | _, .infinite negative => if negative then y else x
  | .finite a, .finite b => if b.value < a.value then y else x

/-- A natural number of seconds as binary64. -/
def Decimal.Extended.ofUInt64 (n : UInt64) : Extended :=
  .finite (.ofMagnitude false n.toNat (by have := n.toNat_lt; omega))

/-- Seconds in nanoseconds, a half going to the even one; what no word of seconds holds becomes the
longest wait. -/
def Decimal.Extended.nanoseconds : Extended → Nat
  | .finite x =>
    if x.value < 0 ∨ UInt64.size * Decimal.unitsPerOne ≤ x.units then longestWait
    else Decimal.roundHalfEven (x.units * nanosPerSecond) Decimal.unitsPerOne
  | _ => longestWait

namespace RetryPolicy

/-- The seconds to wait after an attempt. -/
def backoffSeconds (p : RetryPolicy) (attempt : Nat) : Extended :=
  let coefficient :=
    if p.backoffCoefficient.value < Binary64.one.value then .one else p.backoffCoefficient
  let exponent := min (attempt - 1) 0x7fffffff
  let seconds := .ofUInt64 p.initialInterval * Extended.pow (.finite coefficient) exponent
  if p.maximumInterval = 0 then seconds else seconds.smaller (.ofUInt64 p.maximumInterval)

/-- The nanoseconds to wait after an attempt, counted from one. -/
def backoff (p : RetryPolicy) (attempt : Nat) : Nat := (p.backoffSeconds attempt).nanoseconds

end RetryPolicy

end FlowGraph
