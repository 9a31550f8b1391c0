import FlowGraph.Json.Basic
import FlowGraph.Proofs.Decimal.Rounding
import Mathlib.Order.Compare

/-!
# Integers as binary64

A binary64 has 53 significant bits, fewer than an integer of 64 bits.  Rounding keeps
the order of integers, but it may merge neighbours beyond `2⁵³`.

Main results:

- Theorem `value_toReal_mono`: rounding keeps the order of integers.
- Theorem `order_toReal`: two integers compare as their roundings unless these merge.
- Theorem `Merged.far`, `Merged.near`: merged integers are at least `2⁵³` in magnitude,
  and at most 2048 apart.
-/

namespace FlowGraph.WordInteger

open Decimal

variable {i j : WordInteger}

/-- Different integers with one nearest binary64. -/
def Merged (i j : WordInteger) : Prop := i.val ≠ j.val ∧ i.toReal.value = j.toReal.value

instance (i j : WordInteger) : Decidable (i.Merged j) := by
  unfold Merged
  infer_instance

/-- The magnitude of the nearest binary64 is the nearest one of the magnitude. -/
theorem units_toReal (i : WordInteger) :
    i.toReal.units = roundUnits (i.val.natAbs * unitsPerOne) 1 := rfl

/-- The nearest binary64 of an integer that is not negative. -/
theorem value_toReal_of_nonneg (hi : 0 ≤ i.val) : i.toReal.value = i.toReal.units := by
  have hsign : i.toReal.negative = false := decide_eq_false (Int.not_lt.mpr hi)
  rw [Binary64.value, hsign, if_neg Bool.false_ne_true]

/-- The nearest binary64 of a negative integer. -/
theorem value_toReal_of_neg (hi : i.val < 0) : i.toReal.value = -(i.toReal.units : Int) := by
  have hsign : i.toReal.negative = true := decide_eq_true hi
  rw [Binary64.value, hsign, if_pos rfl]

/-- A larger magnitude has no smaller binary64. -/
theorem units_toReal_mono (hle : i.val.natAbs ≤ j.val.natAbs) :
    i.toReal.units ≤ j.toReal.units :=
  roundUnits_mono Nat.one_pos (Nat.mul_le_mul_right _ hle)

/-- Rounding keeps the order of integers. -/
theorem value_toReal_mono (hle : i.val ≤ j.val) : i.toReal.value ≤ j.toReal.value := by
  by_cases hi : 0 ≤ i.val
  · have hunits : i.toReal.units ≤ j.toReal.units := units_toReal_mono (by omega)
    rw [value_toReal_of_nonneg hi, value_toReal_of_nonneg (Int.le_trans hi hle)]
    omega
  · rw [value_toReal_of_neg (Int.not_le.mp hi)]
    by_cases hj : 0 ≤ j.val
    · rw [value_toReal_of_nonneg hj]
      omega
    · have hunits : j.toReal.units ≤ i.toReal.units := units_toReal_mono (by omega)
      rw [value_toReal_of_neg (Int.not_le.mp hj)]
      omega

/-- Two integers have one binary64 if they are one integer, or merge. -/
theorem value_toReal_eq_iff :
    i.toReal.value = j.toReal.value ↔ i.val = j.val ∨ i.Merged j := by
  constructor
  · intro hsame
    by_cases hval : i.val = j.val
    · exact .inl hval
    · exact .inr ⟨hval, hsame⟩
  · rintro (hval | hmerged)
    · exact Int.le_antisymm (value_toReal_mono hval.le) (value_toReal_mono hval.ge)
    · exact hmerged.2

/-- Two integers compare as their roundings, unless these merge. -/
theorem order_toReal (i j : WordInteger) :
    i.toReal.order j.toReal = if i.Merged j then .eq else compare i.val j.val := by
  unfold Binary64.order
  split
  · next hmerged => exact compare_eq_iff_eq.mpr hmerged.2
  · next hapart =>
    have hvalue (hne : i.val ≠ j.val) : i.toReal.value ≠ j.toReal.value :=
      fun hsame => hapart ⟨hne, hsame⟩
    rcases Int.lt_trichotomy i.val j.val with hlt | heq | hgt
    · rw [compare_lt_iff_lt.mpr hlt]
      have hle := value_toReal_mono hlt.le
      exact compare_lt_iff_lt.mpr (lt_of_le_of_ne hle (hvalue hlt.ne))
    · rw [compare_eq_iff_eq.mpr heq]
      exact compare_eq_iff_eq.mpr (value_toReal_eq_iff.mpr (.inl heq))
    · rw [compare_gt_iff_gt.mpr hgt]
      have hle := value_toReal_mono hgt.le
      exact compare_gt_iff_gt.mpr (lt_of_le_of_ne hle (hvalue hgt.ne').symm)

/-! ## Where integers merge -/

/-- An integer of at most `2⁵³` in magnitude is a binary64. -/
theorem units_toReal_of_le (hi : i.val.natAbs ≤ twoPow 53) :
    i.toReal.units = i.val.natAbs * unitsPerOne :=
  roundUnits_of_short (short_mul_twoPow hi)

/-- A magnitude beyond `2⁵³` does not round below it. -/
theorem le_units_toReal (hi : twoPow 53 ≤ i.val.natAbs) :
    twoPow 53 * unitsPerOne ≤ i.toReal.units := by
  apply le_roundUnits Nat.one_pos (short_mul_twoPow (Nat.le_refl _))
  rw [Nat.mul_one]
  exact Nat.mul_le_mul_right _ hi

/-- Magnitudes with one binary64 are the same unless both are `2⁵³` at least. -/
theorem natAbs_eq_of_lt (hunits : i.toReal.units = j.toReal.units)
    (hi : i.val.natAbs < twoPow 53) : i.val.natAbs = j.val.natAbs := by
  have hpos : 0 < unitsPerOne := twoPow_pos 1074
  rw [units_toReal_of_le hi.le] at hunits
  rcases Nat.le_total j.val.natAbs (twoPow 53) with hj | hj
  · rw [units_toReal_of_le hj] at hunits
    exact Nat.eq_of_mul_eq_mul_right hpos hunits
  · have hbelow := Nat.mul_lt_mul_of_pos_right hi hpos
    exact absurd (le_units_toReal hj) (by omega)

/-- Rounding keeps the sign. -/
theorem value_toReal_neg_iff : i.toReal.value < 0 ↔ i.val < 0 := by
  constructor
  · intro hvalue
    by_contra hi
    rw [value_toReal_of_nonneg (Int.not_lt.mp hi)] at hvalue
    omega
  · intro hi
    have hone : (toReal ⟨-1, by decide, by decide⟩).value < 0 := by decide +kernel
    exact Int.lt_of_le_of_lt (value_toReal_mono (Int.le_sub_one_of_lt hi)) hone

/-- Merged integers have one sign, and magnitudes with one binary64. -/
theorem Merged.units_eq (hmerged : i.Merged j) :
    i.toReal.units = j.toReal.units ∧ (i.val < 0 ↔ j.val < 0) := by
  obtain ⟨-, hsame⟩ := hmerged
  have hsign : i.val < 0 ↔ j.val < 0 := by
    rw [← value_toReal_neg_iff, hsame, value_toReal_neg_iff]
  refine ⟨?_, hsign⟩
  by_cases hi : i.val < 0
  · rw [value_toReal_of_neg hi, value_toReal_of_neg (hsign.mp hi)] at hsame
    omega
  · have hj : ¬ j.val < 0 := fun hj => hi (hsign.mpr hj)
    rw [value_toReal_of_nonneg (Int.not_lt.mp hi), value_toReal_of_nonneg (Int.not_lt.mp hj)]
      at hsame
    omega

/-- Merged integers merge either way round. -/
theorem Merged.symm (hmerged : i.Merged j) : j.Merged i :=
  ⟨Ne.symm hmerged.1, Eq.symm hmerged.2⟩

/-- Merged integers are at least `2⁵³` in magnitude. -/
theorem Merged.far (hmerged : i.Merged j) : twoPow 53 ≤ i.val.natAbs := by
  obtain ⟨hunits, hsign⟩ := hmerged.units_eq
  by_contra hsmall
  have habs := natAbs_eq_of_lt hunits (Nat.lt_of_not_le hsmall)
  have hne := hmerged.1
  omega

/-- Rounding an integer is off by 1024 at most. -/
theorem dist_units_toReal_le (i : WordInteger) :
    i.toReal.units.dist (i.val.natAbs * unitsPerOne) ≤ 1024 * unitsPerOne := by
  have hsize : i.val.natAbs * twoPow 1074 < twoPow (1085 + 53) := by
    have hword : i.val.natAbs < twoPow 64 := by
      have hlow := i.low
      have hhigh := i.high
      show i.val.natAbs < 0x10000000000000000
      omega
    exact mul_twoPow_lt hword (by decide)
  have hgap : twoPow (gap (i.val.natAbs * unitsPerOne)) ≤ twoPow 1085 :=
    twoPow_le (gap_le_of_lt hsize)
  have hspacing : twoPow 1085 = 2048 * unitsPerOne := by
    have hsum : 1085 = 11 + 1074 := rfl
    have hbits : twoPow 11 = 2048 := by decide
    rw [hsum, twoPow_add, hbits, unitsPerOne]
  have hround := dist_roundUnits_le Nat.one_pos (i.val.natAbs * unitsPerOne)
  rw [Nat.mul_one, Nat.one_mul, Nat.div_one, ← units_toReal] at hround
  omega

/-- Merged integers are at most 2048 apart. -/
theorem Merged.near (hmerged : i.Merged j) : (i.val - j.val).natAbs ≤ 2048 := by
  obtain ⟨hunits, hsign⟩ := hmerged.units_eq
  have hi := dist_units_toReal_le i
  have hj := dist_units_toReal_le j
  rw [Nat.dist_comm, hunits] at hi
  have happart : (i.val.natAbs * unitsPerOne).dist (j.val.natAbs * unitsPerOne) ≤
      2048 * unitsPerOne := by
    have htriangle := Nat.dist.triangle_inequality (i.val.natAbs * unitsPerOne) j.toReal.units
      (j.val.natAbs * unitsPerOne)
    omega
  rw [Nat.dist_mul_right] at happart
  have hdist := Nat.le_of_mul_le_mul_right happart (twoPow_pos 1074)
  unfold Nat.dist at hdist
  omega

end FlowGraph.WordInteger
