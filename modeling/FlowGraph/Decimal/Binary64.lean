/-!
# Finite binary64 numbers

A finite binary64 number is a sign and a count of *units* of `2⁻¹⁰⁷⁴`, the smallest positive
magnitude of the format.  Every comparison is then a comparison of integers, and every
arithmetic result is a quotient of natural numbers rounded once.

Main results:

- Theorem `fits_roundUnits`: rounding a quotient below the largest magnitude gives a number of
  the format.

Current gaps:

- Products, quotients and powers are all there is: sums, differences and roots are left out.
-/

namespace FlowGraph.Decimal

/-! ## Powers of two -/

/-- A power of two. -/
def twoPow (n : Nat) : Nat := Nat.pow 2 n

theorem twoPow_pos (n : Nat) : 0 < twoPow n := Nat.two_pow_pos n

theorem twoPow_add (m n : Nat) : twoPow (m + n) = twoPow m * twoPow n := Nat.pow_add ..

theorem twoPow_le {m n : Nat} (h : m ≤ n) : twoPow m ≤ twoPow n :=
  Nat.pow_le_pow_right (by decide) h

theorem twoPow_lt {m n : Nat} (h : m < n) : twoPow m < twoPow n :=
  Nat.pow_lt_pow_right (by decide) h

theorem twoPow_dvd {m n : Nat} (h : m ≤ n) : twoPow m ∣ twoPow n := Nat.pow_dvd_pow 2 h

/-- Shifting a number by `b` bits makes it at most `b` bits longer. -/
theorem mul_twoPow_lt {n a b c : Nat} (small : n < twoPow a) (fit : a + b ≤ c) :
    n * twoPow b < twoPow c :=
  calc n * twoPow b < twoPow a * twoPow b := Nat.mul_lt_mul_of_pos_right small (twoPow_pos b)
    _ = twoPow (a + b) := (twoPow_add ..).symm
    _ ≤ twoPow c := twoPow_le fit

/-! ## Magnitudes -/

/-- The number one counted in units. -/
def unitsPerOne : Nat := twoPow 1074

/-- How many bits a magnitude of `u` units lies above the finest spacing: numbers of the format
near it are `twoPow (gap u)` units apart. -/
def gap (u : Nat) : Nat := u.log2 - 52

/-- A magnitude of `u` units belongs to the format: it is below `2¹⁰²⁴` and has at most 53
significant bits. -/
def Fits (u : Nat) : Prop := u < twoPow 2098 ∧ u % twoPow (gap u) = 0

instance (u : Nat) : Decidable (Fits u) := by unfold Fits; infer_instance

/-- The quotient `num / den` as the nearest natural number, a half going to the even neighbour. -/
def roundHalfEven (num den : Nat) : Nat :=
  let quotient := num / den
  let rest := num % den
  if 2 * rest < den then quotient
  else if den < 2 * rest then quotient + 1
  else quotient + quotient % 2

/-- The magnitude nearest `num / den` units that has at most 53 significant bits. -/
def roundUnits (num den : Nat) : Nat :=
  let step := twoPow (gap (num / den))
  roundHalfEven num (den * step) * step

theorem roundHalfEven_le (num den : Nat) : roundHalfEven num den ≤ num / den + 1 := by
  simp only [roundHalfEven]
  split
  · omega
  · split <;> omega

theorem gap_le_of_lt {u k : Nat} (h : u < twoPow (k + 53)) : gap u ≤ k := by
  unfold gap
  by_cases zero : u = 0
  · simp [zero]
  · have := (Nat.log2_lt zero).mpr h
    omega

/-- A 53-bit significand at any spacing is a number of the format. -/
theorem mod_gap_eq_zero {m g : Nat} (h : m ≤ twoPow 53) :
    m * twoPow g % twoPow (gap (m * twoPow g)) = 0 := by
  by_cases top : m = twoPow 53
  · subst top
    have pow : twoPow 53 * twoPow g = twoPow (g + 53) := by rw [twoPow_add, Nat.mul_comm]
    have le : gap (twoPow 53 * twoPow g) ≤ g + 53 := by
      apply gap_le_of_lt
      rw [pow]
      exact twoPow_lt (by omega)
    rw [pow] at le ⊢
    exact Nat.mod_eq_zero_of_dvd (twoPow_dvd le)
  · have le : gap (m * twoPow g) ≤ g := by
      apply gap_le_of_lt
      rw [twoPow_add, Nat.mul_comm]
      exact Nat.mul_lt_mul_of_pos_left (by omega) (twoPow_pos g)
    exact Nat.mod_eq_zero_of_dvd (Nat.dvd_trans (twoPow_dvd le) (Nat.dvd_mul_left _ _))

theorem div_step_lt (q : Nat) : q / twoPow (gap q) < twoPow 53 := by
  rw [Nat.div_lt_iff_lt_mul (twoPow_pos _), ← twoPow_add]
  refine Nat.lt_of_lt_of_le Nat.lt_log2_self (twoPow_le ?_)
  unfold gap
  omega

theorem roundUnits_significand_le (num den : Nat) :
    roundHalfEven num (den * twoPow (gap (num / den))) ≤ twoPow 53 := by
  have h := roundHalfEven_le num (den * twoPow (gap (num / den)))
  rw [← Nat.div_div_eq_div_mul] at h
  have := div_step_lt (num / den)
  omega

/-- Rounding a quotient below `2⁹⁷³` stays in the format's range. -/
theorem fits_roundUnits {num den : Nat} (small : num / den < twoPow (1994 + 53)) :
    Fits (roundUnits num den) := by
  have le := roundUnits_significand_le num den
  refine ⟨?_, mod_gap_eq_zero le⟩
  have gap_le : gap (num / den) ≤ 1994 := gap_le_of_lt small
  calc roundUnits num den ≤ twoPow 53 * twoPow (gap (num / den)) := Nat.mul_le_mul_right _ le
    _ = twoPow (53 + gap (num / den)) := (twoPow_add ..).symm
    _ < twoPow 2098 := twoPow_lt (by omega)

/-! ## Finite numbers -/

/-- A finite binary64 number; zero has two signs. -/
structure Binary64 where
  negative : Bool
  units : Nat
  fits : Fits units
deriving DecidableEq

namespace Binary64

/-- The number as a signed count of units; both zeros give zero. -/
def value (x : Binary64) : Int := if x.negative then -(x.units : Int) else x.units

/-- Two numbers of one value; the zeros are equal. -/
def sameValue (x y : Binary64) : Bool := x.value == y.value

/-- The order of the two values. -/
def order (x y : Binary64) : Ordering := compare x.value y.value

/-- Positive zero. -/
def zero : Binary64 := ⟨false, 0, twoPow_pos 2098, Nat.zero_mod _⟩

/-- The number nearest a natural number up to `2⁶⁴`, with the given sign. -/
def ofMagnitude (negative : Bool) (n : Nat) (small : n ≤ 0x10000000000000000) : Binary64 where
  negative := negative
  units := roundUnits (n * unitsPerOne) 1
  fits := by
    apply fits_roundUnits
    rw [Nat.div_one, unitsPerOne]
    exact mul_twoPow_lt (Nat.lt_of_le_of_lt small (by decide : 0x10000000000000000 < twoPow 65))
      (by decide)

/-- The opposite number; zero changes its sign. -/
def neg (x : Binary64) : Binary64 := { x with negative := !x.negative }

/-- One. -/
def one : Binary64 := ofMagnitude false 1 (by decide)

/-- Two. -/
def two : Binary64 := ofMagnitude false 2 (by decide)

end Binary64

/-! ## Arithmetic -/

/-- A result of arithmetic: a finite number, an infinity, or no number at all. -/
inductive Extended where
  | finite (x : Binary64)
  | infinite (negative : Bool)
  | undefined
deriving DecidableEq

namespace Extended

/-- The quotient `num / den` of units rounded to the format; past the largest magnitude it is
infinite. -/
def ofQuotient (negative : Bool) (num den : Nat) : Extended :=
  if h : Fits (roundUnits num den) then .finite ⟨negative, roundUnits num den, h⟩
  else .infinite negative

/-- The product, rounded once. Zero times an infinity is undefined. -/
def mul : Extended → Extended → Extended
  | .undefined, _ => .undefined
  | _, .undefined => .undefined
  | .finite x, .finite y =>
    ofQuotient (x.negative != y.negative) (x.units * y.units) (unitsPerOne)
  | .finite x, .infinite sign =>
    if x.units = 0 then .undefined else .infinite (x.negative != sign)
  | .infinite sign, .finite y =>
    if y.units = 0 then .undefined else .infinite (sign != y.negative)
  | .infinite sign, .infinite sign' => .infinite (sign != sign')

instance : Mul Extended := ⟨mul⟩

/-- The quotient of finite numbers, rounded once; anything else, and division by zero, is
undefined. -/
def div : Extended → Extended → Extended
  | .finite x, .finite y =>
    if y.units = 0 then .undefined
    else ofQuotient (x.negative != y.negative) (x.units * unitsPerOne) y.units
  | _, _ => .undefined

/-- Raise to a natural power by repeated squaring: the result takes the factor whenever the
exponent is odd, and the factor is squared after each halving.  Every product is rounded. -/
def powFrom (result factor : Extended) (exponent : Nat) : Extended :=
  let next := if exponent % 2 = 1 then result * factor else result
  if h : exponent / 2 = 0 then next
  else powFrom next (factor * factor) (exponent / 2)
termination_by exponent
decreasing_by omega

/-- The natural power, one for the exponent zero. -/
def pow (base : Extended) (exponent : Nat) : Extended :=
  powFrom (.finite .one) base exponent

end Extended

end FlowGraph.Decimal
