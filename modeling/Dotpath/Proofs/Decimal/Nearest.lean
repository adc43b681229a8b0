import Dotpath.Proofs.Decimal.Rounding
import Mathlib.Algebra.Order.AbsoluteValue.Basic
import Mathlib.Tactic.Linarith

/-!
# The nearest magnitude

Half-way points are not beyond the middle between a magnitude and any other one, so a number that
lies between them has no nearer magnitude (`Rounds.nearest`).
-/

namespace Dotpath.Magnitude

/-! ## Units -/

/-- The number that a magnitude stands for. -/
def value (x : Magnitude) : ℚ :=
  x.units / unitsOfOne

/-- A larger exponent makes a larger magnitude. -/
theorem units_lt_of_exponent_lt {x y : Magnitude} (h : x.exponent < y.exponent) :
    x.units < y.units := by
  have hpow := two_mul_two_pow_le h
  have hx := x.units_lt
  have hy := le_units (Nat.zero_lt_of_lt h)
  unfold fullMantissa at hx hy
  omega

/-! ## Half-way points and middles -/

theorem high_le_middle {x y : Magnitude} (h : x.units < y.units) :
    x.bounds.2 ≤ 2 * (x.units + y.units) := by
  have hexponent : x.exponent ≤ y.exponent :=
    Nat.le_of_not_lt fun hlt => Nat.lt_asymm h (units_lt_of_exponent_lt hlt)
  obtain ⟨k, hk⟩ := Nat.exists_eq_add_of_le hexponent
  have hhigh := x.high_eq
  have hy : y.units = y.mantissa * 2 ^ k * 2 ^ x.exponent := by
    rw [units, Nat.pow_eq, hk, Nat.pow_add, Nat.mul_assoc, Nat.mul_comm (2 ^ k)]
  have hlt : x.mantissa < y.mantissa * 2 ^ k := by
    rw [hy] at h
    exact Nat.lt_of_mul_lt_mul_right h
  have hgap : (x.mantissa + 1) * 2 ^ x.exponent ≤ y.units := hy ▸ Nat.mul_le_mul_right _ hlt
  have hx : x.units = x.mantissa * 2 ^ x.exponent := rfl
  rw [Nat.succ_mul, ← hx] at hgap
  omega

theorem middle_le_low {x y : Magnitude} (h : y.units < x.units) :
    2 * (x.units + y.units) ≤ x.bounds.1 := by
  have hexponent : y.exponent ≤ x.exponent :=
    Nat.le_of_not_lt fun hlt => Nat.lt_asymm h (units_lt_of_exponent_lt hlt)
  have hx : x.units = x.mantissa * 2 ^ x.exponent := rfl
  have hy : y.units = y.mantissa * 2 ^ y.exponent := rfl
  rw [low_eq]
  rcases Nat.eq_or_lt_of_le hexponent with heq | hlt
  · rw [hx, hy, heq] at h
    have hlt : y.mantissa < x.mantissa := Nat.lt_of_mul_lt_mul_right h
    have hgap : (y.mantissa + 1) * 2 ^ x.exponent ≤ x.mantissa * 2 ^ x.exponent :=
      Nat.mul_le_mul_right _ hlt
    rw [Nat.succ_mul] at hgap
    rw [hx, hy, heq]
    split <;> omega
  · -- The mantissa of `y` is too short by at least one to reach the least one of full length.
    have hpow := two_mul_two_pow_le hlt
    have hlong : y.units ≤ (2 * fullMantissa - 1) * 2 ^ y.exponent :=
      Nat.mul_le_mul_right _ (Nat.le_sub_one_of_lt y.canonical.1)
    have hfull := x.canonical.2.2.resolve_right (Nat.ne_zero_of_lt hlt)
    have hle := le_units (Nat.zero_lt_of_lt hlt)
    split
    · unfold fullMantissa at *
      omega
    · next hregular =>
      have hstrict : fullMantissa + 1 ≤ x.mantissa := by
        refine Nat.lt_of_le_of_ne hfull fun heq => ?_
        exact hregular ⟨heq.symm, Nat.zero_lt_of_lt hlt⟩
      have hgap : (fullMantissa + 1) * 2 ^ x.exponent ≤ x.units := Nat.mul_le_mul_right _ hstrict
      unfold fullMantissa at *
      omega

/-! ## Distances -/

theorem Rounds.weak {x : Magnitude} {v : ℚ} (h : x.Rounds v) :
    x.bounds.1 ≤ v * quartersOfOne ∧ v * quartersOfOne ≤ x.bounds.2 := by
  unfold Rounds at h
  split at h
  · exact h
  · exact ⟨h.1.le, h.2.le⟩

theorem value_mul_quartersOfOne (x : Magnitude) : x.value * quartersOfOne = 4 * x.units := by
  have hpos : (unitsOfOne : ℚ) ≠ 0 := by
    refine Nat.cast_ne_zero.2 fun hzero => ?_
    exact absurd quartersOfOne_pos (by rw [quartersOfOne, hzero]; decide)
  rw [value, quartersOfOne, Nat.cast_mul, Nat.cast_ofNat, mul_left_comm, div_mul_cancel₀ _ hpos]

theorem value_le_value {x y : Magnitude} (h : x.units ≤ y.units) : x.value ≤ y.value :=
  div_le_div_of_nonneg_right (Nat.cast_le.2 h) (Nat.cast_nonneg _)

/-- No magnitude is nearer to a number than the one that it rounds to. -/
theorem Rounds.nearest {x : Magnitude} {v : ℚ} (h : x.Rounds v) (y : Magnitude) :
    |x.value - v| ≤ |y.value - v| := by
  have hpos : (0 : ℚ) < quartersOfOne := Nat.cast_pos.2 quartersOfOne_pos
  obtain ⟨hlow, hhigh⟩ := h.weak
  have hx := x.value_mul_quartersOfOne
  have hy := y.value_mul_quartersOfOne
  rcases Nat.lt_trichotomy x.units y.units with hlt | heq | hgt
  · have hmiddle : (x.bounds.2 : ℚ) ≤ 2 * (x.units + y.units) := by
      exact_mod_cast high_le_middle hlt
    have hside : v ≤ (x.value + y.value) / 2 := by
      rw [← mul_le_mul_iff_of_pos_right hpos]
      linarith
    have hless := value_le_value hlt.le
    have hfar := le_abs_self (y.value - v)
    refine abs_le.2 ⟨?_, ?_⟩ <;> linarith
  · rw [value, value, heq]
  · have hmiddle : 2 * (x.units + y.units) ≤ (x.bounds.1 : ℚ) := by
      exact_mod_cast middle_le_low hgt
    have hside : (x.value + y.value) / 2 ≤ v := by
      rw [← mul_le_mul_iff_of_pos_right hpos]
      linarith
    have hless := value_le_value hgt.le
    have hfar := neg_le_abs (y.value - v)
    refine abs_le.2 ⟨?_, ?_⟩ <;> linarith

end Dotpath.Magnitude
