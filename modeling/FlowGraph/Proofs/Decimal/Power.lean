import FlowGraph.Proofs.Decimal.Rounding

/-!
# Powers of binary64 numbers

A power of a number that is at least one never gets undefined: every product is again
at least one, or infinite.  Since powers of two need no rounding, a bound of the base
by a power of two is one of the power, from below and from above, and so tells from
which exponent on the power is infinite.

Main results:

- Theorem `AtLeast.mul`, `AtMost.mul`: bounds of a product from those of its factors.
- Theorem `AtLeast.pow`, `AtMost.pow`: bounds of a power from those of its base.
- Theorem `AtLeast.eq_infinite`: what is at least `2¹⁰²⁴` is infinite.
-/

namespace FlowGraph.Decimal.Extended

/-- A result of at least `2ᵏ`, possibly infinite. -/
inductive AtLeast (k : Nat) : Extended → Prop where
  | finite {x : Binary64} : x.negative = false → twoPow (1074 + k) ≤ x.units →
      AtLeast k (.finite x)
  | infinite : AtLeast k (.infinite false)

/-- A finite result, not negative, of at most `2ᵏ`. -/
inductive AtMost (k : Nat) : Extended → Prop where
  | finite {x : Binary64} : x.negative = false → x.units ≤ twoPow (1074 + k) →
      AtMost k (.finite x)

/-- The product of two powers of two, counted in units, needs no rounding. -/
theorem twoPow_mul_twoPow (j k : Nat) :
    twoPow (1074 + j) * twoPow (1074 + k) = twoPow (1074 + (j + k)) * unitsPerOne := by
  rw [unitsPerOne, ← twoPow_add, ← twoPow_add]
  congr 1
  omega

/-- Rounding stays in the format up to its largest magnitude. -/
theorem fits_roundUnits_iff {num den : Nat} :
    Fits (roundUnits num den) ↔ roundUnits num den < twoPow 2098 :=
  ⟨And.left, fun hlt => ⟨hlt, short_roundUnits num den⟩⟩

/-- A result of at least `2¹⁰²⁴` is infinite. -/
theorem AtLeast.eq_infinite {k : Nat} {x : Extended} (hx : AtLeast k x) (hk : 1024 ≤ k) :
    x = .infinite false := by
  cases hx with
  | @finite y _ hle =>
      have hlarge : twoPow 2098 ≤ y.units := Nat.le_trans (twoPow_le (by omega)) hle
      exact absurd y.fits.1 (Nat.not_lt_of_le hlarge)
  | infinite => rfl

/-- What is finite and at most `2ᵏ` is not infinite. -/
theorem AtMost.ne_infinite {k : Nat} {x : Extended} (hx : AtMost k x) : x ≠ .infinite false := by
  cases hx with
  | finite => exact Extended.noConfusion

/-- The product of finite numbers is rounded once. -/
theorem finite_mul_finite (a b : Binary64) :
    (finite a) * (finite b) =
      ofQuotient (a.negative != b.negative) (a.units * b.units) unitsPerOne := by
  change mul _ _ = _
  simp only [mul]

/-- A finite number that is not zero times infinity is infinite. -/
theorem finite_mul_infinite {a : Binary64} (ha : a.units ≠ 0) (negative : Bool) :
    (finite a) * (infinite negative) = infinite (a.negative != negative) :=
  if_neg ha

/-- Infinity times a finite number that is not zero is infinite. -/
theorem infinite_mul_finite {b : Binary64} (hb : b.units ≠ 0) (negative : Bool) :
    (infinite negative) * (finite b) = infinite (negative != b.negative) :=
  if_neg hb

/-- A number of at least `2ᵏ` is not zero. -/
theorem units_ne_zero {k : Nat} {x : Binary64} (hx : twoPow (1074 + k) ≤ x.units) :
    x.units ≠ 0 :=
  Nat.ne_of_gt (Nat.lt_of_lt_of_le (twoPow_pos _) hx)

/-- Bounds from below multiply. -/
theorem AtLeast.mul {j k : Nat} {x y : Extended} (hx : AtLeast j x) (hy : AtLeast k y) :
    AtLeast (j + k) (x * y) := by
  cases hx with
  | @finite a ha hlea =>
      cases hy with
      | @finite b hb hleb =>
          have hproduct : twoPow (1074 + (j + k)) * unitsPerOne ≤ a.units * b.units := by
            rw [← twoPow_mul_twoPow]
            exact Nat.mul_le_mul hlea hleb
          have hround := le_roundUnits (twoPow_pos 1074) (short_twoPow _) hproduct
          rw [finite_mul_finite, ha, hb, ofQuotient]
          split
          · exact .finite rfl hround
          · exact .infinite
      | infinite =>
          rw [finite_mul_infinite (units_ne_zero hlea), ha]
          exact .infinite
  | infinite =>
      cases hy with
      | @finite b hb hleb =>
          rw [infinite_mul_finite (units_ne_zero hleb), hb]
          exact .infinite
      | infinite => exact .infinite

/-- Bounds from above multiply, as long as they stay in the format. -/
theorem AtMost.mul {j k : Nat} {x y : Extended} (hx : AtMost j x) (hy : AtMost k y)
    (hfits : j + k ≤ 1023) : AtMost (j + k) (x * y) := by
  cases hx with
  | @finite a ha hlea =>
      cases hy with
      | @finite b hb hleb =>
          have hproduct : a.units * b.units ≤ twoPow (1074 + (j + k)) * unitsPerOne := by
            rw [← twoPow_mul_twoPow]
            exact Nat.mul_le_mul hlea hleb
          have hround := roundUnits_le (twoPow_pos 1074) (short_twoPow _) hproduct
          have hsmall : roundUnits (a.units * b.units) unitsPerOne < twoPow 2098 :=
            Nat.lt_of_le_of_lt hround (twoPow_lt (by omega))
          rw [finite_mul_finite, ha, hb, ofQuotient, dif_pos (fits_roundUnits_iff.mpr hsmall)]
          exact .finite rfl hround

/-- The bounds of the result and of the factor bound the power from below. -/
theorem AtLeast.powFrom {j k : Nat} {result factor : Extended} (exponent : Nat)
    (hresult : AtLeast j result) (hfactor : AtLeast k factor) :
    AtLeast (j + k * exponent) (powFrom result factor exponent) := by
  induction exponent using Nat.strong_induction_on generalizing j k result factor with
  | _ exponent ih =>
      have hnext : AtLeast (j + k * (exponent % 2))
          (if exponent % 2 = 1 then result * factor else result) := by
        rcases Nat.mod_two_eq_zero_or_one exponent with heven | hodd
        · rw [heven, if_neg (by decide), Nat.mul_zero, Nat.add_zero]
          exact hresult
        · rw [hodd, if_pos rfl, Nat.mul_one]
          exact hresult.mul hfactor
      rw [Extended.powFrom]
      split
      · next hlast =>
        have hself : k * (exponent % 2) = k * exponent := by rw [Nat.mod_eq_of_lt (by omega)]
        rwa [hself] at hnext
      · next hmore =>
        have hpower := ih (exponent / 2) (by omega) hnext (hfactor.mul hfactor)
        have hsum : j + k * (exponent % 2) + (k + k) * (exponent / 2) = j + k * exponent := by
          rw [← Nat.two_mul, Nat.mul_comm 2, Nat.mul_assoc, Nat.add_assoc, ← Nat.mul_add,
            Nat.mod_add_div]
        rwa [hsum] at hpower

/-- The bounds of the result and of the factor bound the power from above. -/
theorem AtMost.powFrom {j k : Nat} {result factor : Extended} (exponent : Nat)
    (hresult : AtMost j result) (hfactor : AtMost k factor) (hfits : j + k * exponent ≤ 1023) :
    AtMost (j + k * exponent) (powFrom result factor exponent) := by
  induction exponent using Nat.strong_induction_on generalizing j k result factor with
  | _ exponent ih =>
      have hsum : j + k * (exponent % 2) + (k + k) * (exponent / 2) = j + k * exponent := by
        rw [← Nat.two_mul, Nat.mul_comm 2, Nat.mul_assoc, Nat.add_assoc, ← Nat.mul_add,
          Nat.mod_add_div]
      have hnext : AtMost (j + k * (exponent % 2))
          (if exponent % 2 = 1 then result * factor else result) := by
        rcases Nat.mod_two_eq_zero_or_one exponent with heven | hodd
        · rw [heven, if_neg (by decide), Nat.mul_zero, Nat.add_zero]
          exact hresult
        · rw [hodd, Nat.mul_one] at hsum
          rw [hodd, if_pos rfl, Nat.mul_one]
          exact hresult.mul hfactor (by omega)
      rw [Extended.powFrom]
      split
      · next hlast =>
        have hself : k * (exponent % 2) = k * exponent := by rw [Nat.mod_eq_of_lt (by omega)]
        rwa [hself] at hnext
      · next hmore =>
        have hsquare : k + k ≤ (k + k) * (exponent / 2) :=
          Nat.le_mul_of_pos_right _ (Nat.pos_of_ne_zero hmore)
        have hpower := ih (exponent / 2) (by omega) hnext (hfactor.mul hfactor (by omega))
          (by omega)
        rwa [hsum] at hpower

/-- A power is at least the power of a bound of its base. -/
theorem AtLeast.pow {k : Nat} {base : Extended} (hbase : AtLeast k base) (exponent : Nat) :
    AtLeast (k * exponent) (pow base exponent) := by
  have hone : AtLeast 0 (.finite .one) := .finite rfl units_one.ge
  have hpower := hone.powFrom exponent hbase
  rwa [Nat.zero_add] at hpower

/-- A power is at most the power of a bound of its base, as long as this stays in the
format. -/
theorem AtMost.pow {k : Nat} {base : Extended} (hbase : AtMost k base) {exponent : Nat}
    (hfits : k * exponent ≤ 1023) : AtMost (k * exponent) (pow base exponent) := by
  have hone : AtMost 0 (.finite .one) := .finite rfl units_one.le
  have hpower := hone.powFrom exponent hbase (by omega)
  rwa [Nat.zero_add] at hpower

end FlowGraph.Decimal.Extended
