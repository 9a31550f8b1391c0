import FlowGraph.Activity.Backoff
import FlowGraph.Proofs.Decimal.Power

/-!
# Retries without an initial interval

Where the initial interval is zero, every wait should be: zero times any growth is
zero.  But the growth is a power of binary64, which from some attempt on is infinite,
and zero times infinity is no number at all.  It gives way to the maximum interval,
and without one becomes the longest wait.

Main results:

- Theorem `growth_cases`: the growth of a wait is finite or infinite.
- Theorem `backoff_of_finite`, `backoff_of_infinite`: what becomes of a wait without
  an initial interval.
- Theorem `backoff_of_zero_interval`: the wait is zero exactly as long as the growth is
  finite, and how long this is at least and at most.
-/

namespace FlowGraph

open Decimal (Binary64 Extended unitsPerOne twoPow)
open Decimal.Extended (AtLeast AtMost)

namespace RetryPolicy

variable (p : RetryPolicy) (attempt : Nat)

/-- The coefficient by which the wait grows: one if a smaller one is set. -/
def coefficient : Binary64 :=
  if p.backoffCoefficient.value < Binary64.one.value then .one else p.backoffCoefficient

/-- How much the wait has grown after an attempt: the power of the coefficient by the
attempts before it. -/
def growth : Extended := .pow (.finite p.coefficient) (min (attempt - 1) 0x7fffffff)

/-- The wait is the initial interval times its growth, up to the maximum interval if
one is set. -/
theorem backoffSeconds_eq :
    p.backoffSeconds attempt =
      let seconds := .ofUInt64 p.initialInterval * p.growth attempt
      if p.maximumInterval = 0 then seconds else seconds.smaller (.ofUInt64 p.maximumInterval) := by
  rfl

/-! ## The growth of a wait -/

/-- A value of at least a power of two is not negative. -/
theorem atLeast_of_le_value {k : Nat} {x : Binary64} (hx : (twoPow (1074 + k) : Int) ≤ x.value) :
    AtLeast k (.finite x) := by
  have hpos := Decimal.twoPow_pos (1074 + k)
  cases hsign : x.negative with
  | false =>
      rw [Binary64.value, hsign, if_neg Bool.false_ne_true] at hx
      exact .finite hsign (by omega)
  | true =>
      rw [Binary64.value, hsign, if_pos rfl] at hx
      omega

/-- The coefficient is one at least. -/
theorem atLeast_coefficient : AtLeast 0 (.finite p.coefficient) := by
  have hone : (twoPow 1074 : Int) = Binary64.one.value := Decimal.value_one.symm
  apply atLeast_of_le_value
  rw [Nat.add_zero, hone]
  unfold coefficient
  split <;> omega

/-- The growth of a wait is one at least. -/
theorem atLeast_growth : AtLeast 0 (p.growth attempt) := by
  have hpower := p.atLeast_coefficient.pow (min (attempt - 1) 0x7fffffff)
  rwa [Nat.zero_mul] at hpower

/-- The growth of a wait is finite or infinite. -/
theorem growth_cases :
    (∃ x, p.growth attempt = .finite x ∧ x.negative = false) ∨
      p.growth attempt = .infinite false := by
  generalize hgrowth : p.growth attempt = growth
  have hleast := hgrowth ▸ p.atLeast_growth attempt
  cases hleast with
  | finite hsign => exact .inl ⟨_, rfl, hsign⟩
  | infinite => exact .inr rfl

variable {p attempt}

/-- A coefficient of at most a power of two grows at most by its power, as long as this
stays in the format. -/
theorem growth_ne_infinite {k : Nat}
    (hcoefficient : p.backoffCoefficient.value ≤ (twoPow (1074 + k) : Int))
    (hsmall : k * (attempt - 1) ≤ 1023) : p.growth attempt ≠ .infinite false := by
  have hone : twoPow 1074 ≤ twoPow (1074 + k) := Decimal.twoPow_le (by omega)
  have hvalue : p.coefficient.value ≤ (twoPow (1074 + k) : Int) := by
    unfold coefficient
    split
    · rw [Decimal.value_one, Decimal.unitsPerOne]
      omega
    · exact hcoefficient
  have hbase : AtMost k (.finite p.coefficient) := by
    cases p.atLeast_coefficient with
    | finite hsign =>
        rw [Binary64.value, hsign, if_neg Bool.false_ne_true] at hvalue
        exact .finite hsign (by omega)
  have hexponent : k * min (attempt - 1) 0x7fffffff ≤ k * (attempt - 1) :=
    Nat.mul_le_mul_left k (Nat.min_le_left _ _)
  exact (hbase.pow (Nat.le_trans hexponent hsmall)).ne_infinite

/-- A coefficient of at least a power of two grows at least by its power, which leaves
the format. -/
theorem growth_eq_infinite {k : Nat}
    (hcoefficient : (twoPow (1074 + k) : Int) ≤ p.backoffCoefficient.value)
    (hlarge : 1024 ≤ k * (attempt - 1)) : p.growth attempt = .infinite false := by
  have hone : twoPow 1074 ≤ twoPow (1074 + k) := Decimal.twoPow_le (by omega)
  have hsame : p.coefficient = p.backoffCoefficient := by
    apply if_neg
    rw [Decimal.value_one, Decimal.unitsPerOne]
    omega
  have hbase : AtLeast k (.finite p.coefficient) := atLeast_of_le_value (hsame ▸ hcoefficient)
  have hk : 0 < k := by
    apply Nat.pos_of_mul_pos_right (b := attempt - 1)
    exact Nat.lt_of_lt_of_le (by decide) hlarge
  refine (hbase.pow (min (attempt - 1) 0x7fffffff)).eq_infinite ?_
  rcases Nat.le_total (attempt - 1) 0x7fffffff with hle | hle
  · rw [Nat.min_eq_left hle]
    exact hlarge
  · rw [Nat.min_eq_right hle]
    have hfactor := Nat.le_mul_of_pos_left 0x7fffffff hk
    omega

/-! ## Waits without an initial interval -/

/-- No seconds are positive zero. -/
theorem ofUInt64_zero : Extended.ofUInt64 0 = .finite .zero := by
  decide +kernel

/-- Zero times a number that is not negative is zero. -/
theorem zero_mul_finite {x : Binary64} (hsign : x.negative = false) :
    Extended.finite .zero * .finite x = .finite .zero := by
  have hunits : Binary64.zero.units * x.units = 0 := Nat.zero_mul _
  have hround : Decimal.roundUnits 0 unitsPerOne = 0 := by decide +kernel
  have hfits : Decimal.Fits (Decimal.roundUnits 0 unitsPerOne) := by
    rw [hround]
    exact Binary64.zero.fits
  rw [Decimal.Extended.finite_mul_finite, hunits, hsign, Extended.ofQuotient, dif_pos hfits]
  simp only [hround]
  rfl

/-- No seconds are no nanoseconds. -/
theorem nanoseconds_zero : (Extended.finite .zero).nanoseconds = 0 := by
  decide +kernel

/-- Zero is smaller than every interval. -/
theorem smaller_zero (n : UInt64) :
    (Extended.finite .zero).smaller (.ofUInt64 n) = .finite .zero := by
  have hvalue : 0 ≤ (Binary64.ofMagnitude false n.toNat (by have := n.toNat_lt; omega)).value :=
    Int.natCast_nonneg _
  have hzero : Binary64.zero.value = 0 := rfl
  simp only [Extended.ofUInt64, Extended.smaller]
  rw [hzero, if_neg (Int.not_lt.mpr hvalue)]

/-- One second or more is a second of nanoseconds at least. -/
theorem nanosPerSecond_le {x : Binary64} (hx : unitsPerOne ≤ x.units) :
    nanosPerSecond ≤ (Extended.finite x).nanoseconds := by
  simp only [Extended.nanoseconds]
  by_cases hlong : x.value < 0 ∨ UInt64.size * unitsPerOne ≤ x.units
  · rw [if_pos hlong]
    decide
  · rw [if_neg hlong]
    apply Nat.le_trans _ (Decimal.div_le_roundHalfEven _ _)
    apply (Nat.le_div_iff_mul_le (Decimal.twoPow_pos 1074)).mpr
    rw [Nat.mul_comm]
    exact Nat.mul_le_mul_right _ hx

/-- An interval of seconds is at least a second. -/
theorem nanosPerSecond_le_nanoseconds {n : UInt64} (hn : n ≠ 0) :
    nanosPerSecond ≤ (Extended.ofUInt64 n).nanoseconds := by
  have hpos : 0 < n.toNat := by
    apply Nat.pos_of_ne_zero
    intro hzero
    exact hn (UInt64.toNat_inj.mp hzero)
  apply nanosPerSecond_le
  apply Decimal.le_roundUnits Nat.one_pos (Decimal.short_twoPow 1074)
  rw [Nat.mul_one]
  exact Nat.le_mul_of_pos_left _ hpos

/-- Without an initial interval a finite growth leaves no wait. -/
theorem backoff_of_finite (hzero : p.initialInterval = 0)
    (hfinite : p.growth attempt ≠ .infinite false) : p.backoff attempt = 0 := by
  rcases p.growth_cases attempt with ⟨x, hgrowth, hsign⟩ | hgrowth
  · rw [backoff, backoffSeconds_eq, hzero, hgrowth, ofUInt64_zero]
    dsimp only
    rw [zero_mul_finite hsign]
    split
    · exact nanoseconds_zero
    · rw [smaller_zero]
      exact nanoseconds_zero
  · exact absurd hgrowth hfinite

/-- Without an initial interval an infinite growth makes the wait the maximum interval,
or the longest wait if none is set. -/
theorem backoff_of_infinite (hzero : p.initialInterval = 0)
    (hinfinite : p.growth attempt = .infinite false) :
    p.backoff attempt =
      if p.maximumInterval = 0 then longestWait
      else (Extended.ofUInt64 p.maximumInterval).nanoseconds := by
  rw [backoff, backoffSeconds_eq, hzero, hinfinite, ofUInt64_zero]
  have hundefined : Extended.finite .zero * .infinite false = .undefined := rfl
  dsimp only
  rw [hundefined]
  split
  · rfl
  · rfl

/-- Without an initial interval there is no wait exactly as long as the growth is finite.
Once it is infinite, the wait is the maximum interval, or the longest wait if none is
set.  A coefficient of at most `2ᵏ` keeps the growth finite while `k` times the attempts
before stays below 1024, and one of at least `2ᵏ` makes it infinite from there on. -/
theorem backoff_of_zero_interval (p : RetryPolicy) (hzero : p.initialInterval = 0)
    (attempt : Nat) :
    (p.backoff attempt = 0 ↔ p.growth attempt ≠ .infinite false) ∧
      (p.growth attempt = .infinite false → p.backoff attempt =
        if p.maximumInterval = 0 then longestWait
        else (Extended.ofUInt64 p.maximumInterval).nanoseconds) ∧
      (∀ k, p.backoffCoefficient.value ≤ (twoPow (1074 + k) : Int) →
        k * (attempt - 1) ≤ 1023 → p.backoff attempt = 0) ∧
      (∀ k, (twoPow (1074 + k) : Int) ≤ p.backoffCoefficient.value →
        1024 ≤ k * (attempt - 1) → p.backoff attempt ≠ 0) := by
  have hlong (hinfinite : p.growth attempt = .infinite false) : p.backoff attempt ≠ 0 := by
    rw [backoff_of_infinite hzero hinfinite]
    by_cases hmaximum : p.maximumInterval = 0
    · rw [if_pos hmaximum]
      decide
    · rw [if_neg hmaximum]
      have hsecond := nanosPerSecond_le_nanoseconds hmaximum
      exact Nat.ne_of_gt (Nat.lt_of_lt_of_le (by decide) hsecond)
  refine ⟨⟨fun hnone hinfinite => hlong hinfinite hnone, backoff_of_finite hzero⟩,
    backoff_of_infinite hzero, ?_, ?_⟩
  · intro k hcoefficient hsmall
    exact backoff_of_finite hzero (growth_ne_infinite hcoefficient hsmall)
  · intro k hcoefficient hlarge
    exact hlong (growth_eq_infinite hcoefficient hlarge)

/-- Doubling waits of zero last until attempt 1024. -/
theorem backoff_of_zero_interval_doubling :
    ({ initialInterval := 0 } : RetryPolicy).backoff 1024 = 0 ∧
      ({ initialInterval := 0 } : RetryPolicy).backoff 1025 ≠ 0 := by
  have hdoubling (attempt : Nat) := backoff_of_zero_interval { initialInterval := 0 } rfl attempt
  exact ⟨(hdoubling 1024).2.2.1 1 (by decide +kernel) (by decide),
    (hdoubling 1025).2.2.2 1 (by decide +kernel) (by decide)⟩

/-- After attempt 1025 a policy without an initial interval waits as long as it can, or
for its maximum interval. -/
theorem backoff_zero_interval_overflow :
    ({ initialInterval := 0 } : RetryPolicy).backoff 1025 = longestWait ∧
      ({ initialInterval := 0, maximumInterval := 7 } : RetryPolicy).backoff 1025 =
        7 * nanosPerSecond := by
  decide +kernel

end RetryPolicy

end FlowGraph
