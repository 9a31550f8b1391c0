import FlowGraph.Decimal.Binary64
import Mathlib.Data.Nat.Dist

/-!
# Rounding to nearest

Rounding gives a magnitude of at most 53 significant bits, and no other such
magnitude lies nearer.  Everything else follows from this: rounding keeps the order,
never passes a magnitude that needs no rounding, and is off by at most half the
spacing of the format.

Main results:

- Theorem `roundUnits_nearest`: no magnitude of the format lies nearer than the
  rounded one.
- Theorem `roundUnits_mono`: rounding keeps the order.
- Theorem `roundUnits_le`, `le_roundUnits`: rounding does not pass a magnitude of the
  format.
- Theorem `dist_roundUnits_le`: rounding is off by at most half the spacing.
-/

namespace FlowGraph.Decimal

/-- A magnitude with at most 53 significant bits, however large it is. -/
def Short (u : Nat) : Prop := u % twoPow (gap u) = 0

/-- A significand of 53 bits makes a short magnitude at every spacing. -/
theorem short_mul_twoPow {m g : Nat} (hm : m ≤ twoPow 53) : Short (m * twoPow g) :=
  mod_gap_eq_zero hm

/-- A power of two is short. -/
theorem short_twoPow (k : Nat) : Short (twoPow k) := by
  have hone : 1 * twoPow k = twoPow k := Nat.one_mul _
  rw [← hone]
  exact short_mul_twoPow (by decide +kernel)

/-- Rounding gives a short magnitude. -/
theorem short_roundUnits (num den : Nat) : Short (roundUnits num den) :=
  short_mul_twoPow (roundUnits_significand_le num den)

/-- A short magnitude is a multiple of every spacing up to its own. -/
theorem Short.dvd {u g : Nat} (hu : Short u) (hg : g ≤ gap u) : twoPow g ∣ u :=
  Nat.dvd_trans (twoPow_dvd hg) (Nat.dvd_of_mod_eq_zero hu)

/-- A magnitude with a smaller gap is below the 53-bit magnitudes of the larger one. -/
theorem lt_of_gap_lt {u v : Nat} (hgap : gap u < gap v) :
    u < twoPow (52 + gap v) ∧ twoPow (52 + gap v) ≤ v := by
  have hv : v ≠ 0 := by
    rintro rfl
    exact absurd hgap (Nat.not_lt_zero _)
  constructor
  · apply Nat.lt_of_lt_of_le Nat.lt_log2_self
    apply twoPow_le
    unfold gap at *
    omega
  · apply Nat.le_trans _ (Nat.log2_self_le hv)
    apply twoPow_le
    unfold gap at *
    omega

/-- Rounding to a natural number does not go below the quotient. -/
theorem div_le_roundHalfEven (num den : Nat) : num / den ≤ roundHalfEven num den := by
  simp only [roundHalfEven]
  split
  · exact Nat.le_refl _
  · split <;> omega

/-- No multiple lies nearer than the rounded one. -/
theorem roundHalfEven_nearest {den : Nat} (hden : 0 < den) (num m : Nat) :
    (roundHalfEven num den * den).dist num ≤ (m * den).dist num := by
  have hdivide := Nat.div_add_mod num den
  have hrest := Nat.mod_lt num hden
  rw [Nat.mul_comm] at hdivide
  -- Every multiple lies at or below the quotient, or above it by one step or more.
  have hside : m * den ≤ num / den * den ∨ num / den * den + den ≤ m * den := by
    rcases Nat.lt_or_ge (num / den) m with hlt | hle
    · right
      have := Nat.mul_le_mul_right den hlt
      rwa [Nat.succ_mul] at this
    · exact .inl (Nat.mul_le_mul_right den hle)
  have hstep : (num / den + 1) * den = num / den * den + den := Nat.succ_mul _ _
  unfold Nat.dist roundHalfEven
  dsimp only
  split
  · omega
  · split
    · rw [hstep]
      omega
    · rcases Nat.mod_two_eq_zero_or_one (num / den) with heven | hodd
      · rw [heven, Nat.add_zero]
        omega
      · rw [hodd, hstep]
        omega

/-- No magnitude of the format lies nearer than the rounded one. -/
theorem roundUnits_nearest {den u : Nat} (hden : 0 < den) (num : Nat) (hu : Short u) :
    (roundUnits num den * den).dist num ≤ (u * den).dist num := by
  let step := twoPow (gap (num / den))
  have hstep : 0 < den * step := Nat.mul_pos hden (twoPow_pos _)
  have hscale (m : Nat) : m * step * den = m * (den * step) := by
    rw [Nat.mul_assoc, Nat.mul_comm step]
  have hnearest (m : Nat) : (roundUnits num den * den).dist num ≤ (m * step * den).dist num := by
    rw [hscale]
    show (roundHalfEven num (den * step) * step * den).dist num ≤ _
    rw [hscale]
    exact roundHalfEven_nearest hstep num m
  by_cases hgap : gap (num / den) ≤ gap u
  · obtain ⟨m, rfl⟩ := hu.dvd hgap
    rw [Nat.mul_comm _ m]
    exact hnearest m
  · -- A finer magnitude lies below a multiple that is itself not above the quotient.
    obtain ⟨hbelow, habove⟩ := lt_of_gap_lt (Nat.lt_of_not_le hgap)
    rw [twoPow_add] at hbelow habove
    have hupper : twoPow 52 * step * den ≤ num := by
      exact Nat.le_trans (Nat.mul_le_mul_right den habove) (Nat.div_mul_le_self num den)
    have hlower : u * den ≤ twoPow 52 * step * den := Nat.mul_le_mul_right den hbelow.le
    refine Nat.le_trans (hnearest (twoPow 52)) ?_
    unfold Nat.dist
    omega

/-- Rounding does not go above a magnitude of the format. -/
theorem roundUnits_le {num den u : Nat} (hden : 0 < den) (hu : Short u) (hle : num ≤ u * den) :
    roundUnits num den ≤ u := by
  have hnearest := roundUnits_nearest hden num hu
  by_contra hgt
  have habove := Nat.mul_lt_mul_of_pos_right (Nat.lt_of_not_le hgt) hden
  unfold Nat.dist at hnearest
  omega

/-- Rounding does not go below a magnitude of the format. -/
theorem le_roundUnits {num den u : Nat} (hden : 0 < den) (hu : Short u) (hle : u * den ≤ num) :
    u ≤ roundUnits num den := by
  have hnearest := roundUnits_nearest hden num hu
  by_contra hlt
  have hbelow := Nat.mul_lt_mul_of_pos_right (Nat.lt_of_not_le hlt) hden
  unfold Nat.dist at hnearest
  omega

/-- A magnitude of the format is its own rounding, however large it is. -/
theorem roundUnits_of_short {u : Nat} (hu : Short u) : roundUnits u 1 = u :=
  Nat.le_antisymm (roundUnits_le Nat.one_pos hu (Nat.mul_one u).ge)
    (le_roundUnits Nat.one_pos hu (Nat.mul_one u).le)

/-- The number one has as many units as one. -/
theorem units_one : Binary64.one.units = unitsPerOne := by
  show roundUnits (1 * unitsPerOne) 1 = unitsPerOne
  rw [Nat.one_mul]
  exact roundUnits_of_short (short_twoPow 1074)

/-- The value of one. -/
theorem value_one : Binary64.one.value = unitsPerOne := by
  show ((Binary64.one.units : Nat) : Int) = _
  rw [units_one]

/-- Rounding keeps the order. -/
theorem roundUnits_mono {a b den : Nat} (hden : 0 < den) (hle : a ≤ b) :
    roundUnits a den ≤ roundUnits b den := by
  by_contra hlt
  -- Were the results the wrong way round, `a` would lie above their middle and `b` below it.
  have hless := Nat.mul_lt_mul_of_pos_right (Nat.lt_of_not_le hlt) hden
  have ha := roundUnits_nearest hden a (short_roundUnits b den)
  have hb := roundUnits_nearest hden b (short_roundUnits a den)
  unfold Nat.dist at ha hb
  have hsame : a = b := by omega
  subst hsame
  exact hlt (Nat.le_refl _)

/-- Rounding is off by at most half the spacing of the format. -/
theorem dist_roundUnits_le {den : Nat} (hden : 0 < den) (num : Nat) :
    2 * (roundUnits num den * den).dist num ≤ den * twoPow (gap (num / den)) := by
  let step := den * twoPow (gap (num / den))
  have hstep : 0 < step := Nat.mul_pos hden (twoPow_pos _)
  have hscale : roundUnits num den * den = roundHalfEven num step * step := by
    rw [roundUnits, Nat.mul_assoc, Nat.mul_comm (twoPow _)]
  have hdivide := Nat.div_add_mod num step
  have hrest := Nat.mod_lt num hstep
  rw [Nat.mul_comm] at hdivide
  have hlower := roundHalfEven_nearest hstep num (num / step)
  have hupper := roundHalfEven_nearest hstep num (num / step + 1)
  rw [Nat.succ_mul] at hupper
  rw [hscale]
  show _ ≤ step
  unfold Nat.dist at *
  omega

end FlowGraph.Decimal
