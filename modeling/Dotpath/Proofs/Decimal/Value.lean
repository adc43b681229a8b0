import Dotpath.Proofs.Decimal.Rounding

/-!
# Rounding decimals

A decimal is rounded as its value is: the tests of the order, which keep the numbers small, change
nothing.

Results:
1. `nearest?_eq_some_iff`: which magnitude a decimal rounds to.
2. `nearest?_eq_none_iff`: which decimals are out of range.
-/

namespace Dotpath.Decimal

open Magnitude

/-! ## How long numbers are -/

theorem lt_pow_digitCount (n : Nat) : n < 10 ^ digitCount n :=
  (Nat.length_toDigits_le_iff (by decide) (List.length_pos_iff.2 Nat.toDigits_ne_nil)).1 le_rfl

theorem pow_digitCount_le {n : Nat} (hn : n ≠ 0) : 10 ^ (digitCount n - 1) ≤ n := by
  rcases Nat.eq_zero_or_pos (digitCount n - 1) with hone | hpos
  · rw [hone]
    exact Nat.pos_of_ne_zero hn
  · have h := (Nat.length_toDigits_le_iff (n := n) (by decide : 1 < 10) hpos).not
    refine Nat.not_lt.1 (h.1 ?_)
    exact Nat.not_le.2 (Nat.sub_one_lt_of_lt (Nat.lt_of_lt_of_le hpos (Nat.sub_le _ 1)))

/-! ## Rounding decimals -/

/-- The number that a decimal stands for. -/
def value (decimal : Decimal) : ℚ :=
  decimal.digits * 10 ^ decimal.exponent

theorem value_nonneg (d : Decimal) : 0 ≤ d.value :=
  mul_nonneg (Nat.cast_nonneg _) (zpow_nonneg (by norm_num) _)

/-- The value as a quotient. -/
def fraction (decimal : Decimal) : Nat × Nat :=
  if decimal.exponent < 0 then (decimal.digits, Nat.pow 10 decimal.exponent.natAbs)
  else (decimal.digits * Nat.pow 10 decimal.exponent.natAbs, 1)

theorem fraction_pos (d : Decimal) : 0 < d.fraction.2 := by
  unfold fraction
  split
  · exact Nat.pow_pos (by decide)
  · exact Nat.one_pos

theorem value_eq_fraction (d : Decimal) : d.value = d.fraction.1 / d.fraction.2 := by
  unfold fraction value
  split
  · next hneg =>
    obtain ⟨n, hn⟩ := Int.exists_eq_neg_ofNat hneg.le
    rw [hn, zpow_neg, zpow_natCast, Int.natAbs_neg, Int.natAbs_natCast, Nat.pow_eq,
      ← div_eq_mul_inv, Nat.cast_pow, Nat.cast_ofNat]
  · next hnonneg =>
    obtain ⟨n, hn⟩ := Int.eq_ofNat_of_zero_le (not_lt.1 hnonneg)
    rw [hn, zpow_natCast, Int.natAbs_natCast, Nat.pow_eq, Nat.cast_one, div_one, Nat.cast_mul,
      Nat.cast_pow, Nat.cast_ofNat]

theorem value_lt (d : Decimal) : d.value < 10 ^ ((digitCount d.digits : ℤ) + d.exponent) := by
  rw [value, zpow_add₀ (by norm_num), zpow_natCast]
  refine mul_lt_mul_of_pos_right ?_ (zpow_pos (by norm_num) _)
  exact_mod_cast lt_pow_digitCount d.digits

theorem le_value {d : Decimal} (hdigits : d.digits ≠ 0) :
    (10 : ℚ) ^ ((digitCount d.digits : ℤ) + d.exponent - 1) ≤ d.value := by
  have hpos : 0 < digitCount d.digits := List.length_pos_iff.2 Nat.toDigits_ne_nil
  have hexponent : (digitCount d.digits : ℤ) + d.exponent - 1
      = ((digitCount d.digits - 1 : ℕ) : ℤ) + d.exponent := by omega
  rw [value, hexponent, zpow_add₀ (by norm_num), zpow_natCast]
  refine mul_le_mul_of_nonneg_right ?_ (zpow_nonneg (by norm_num) _)
  exact_mod_cast pow_digitCount_le hdigits

theorem rounds_zero_of_le {value : ℚ} (hnonneg : 0 ≤ value) (hle : value ≤ 10 ^ (-330 : ℤ)) :
    Magnitude.zero.Rounds value := by
  have hsmall : quartersOfOne ≤ 2 * 10 ^ 330 := by decide +kernel
  have hquarters : (quartersOfOne : ℚ) ≤ 2 * 10 ^ 330 := by
    have h : (quartersOfOne : ℚ) ≤ (2 * 10 ^ 330 : ℕ) := Nat.cast_le.2 hsmall
    rwa [Nat.cast_mul, Nat.cast_pow, Nat.cast_ofNat, Nat.cast_ofNat] at h
  have hscaled : value * quartersOfOne ≤ 2 := by
    calc value * quartersOfOne ≤ 10 ^ (-330 : ℤ) * (2 * 10 ^ 330) :=
          mul_le_mul hle hquarters (Nat.cast_nonneg _) (zpow_nonneg (by norm_num) _)
      _ = 2 := by
        rw [zpow_neg, mul_left_comm, ← zpow_natCast, Nat.cast_ofNat,
          inv_mul_cancel₀ (zpow_ne_zero _ (by norm_num)), mul_one]
  rw [Rounds, if_pos (by decide), show Magnitude.zero.bounds = (0, 2) from rfl, Nat.cast_zero,
    Nat.cast_ofNat]
  exact ⟨mul_nonneg hnonneg (Nat.cast_nonneg _), hscaled⟩

theorem overflow_le_of_le {value : ℚ} (hle : 10 ^ (310 : ℤ) ≤ value) :
    (2 ^ 54 - 1) * 2 ^ 970 ≤ value := by
  have h : (2 ^ 54 - 1) * 2 ^ 970 ≤ 10 ^ 310 := by decide +kernel
  have hcast : (((2 ^ 54 - 1) * 2 ^ 970 : ℕ) : ℚ) ≤ (10 ^ 310 : ℕ) := Nat.cast_le.2 h
  rw [Nat.cast_mul, Nat.cast_sub (by decide), Nat.cast_pow, Nat.cast_pow, Nat.cast_pow,
    Nat.cast_ofNat, Nat.cast_one, Nat.cast_ofNat] at hcast
  exact hcast.trans hle

/-- The tests of the order only save work. -/
theorem nearest?_eq_fraction (d : Decimal) :
    d.nearest? = Magnitude.nearest? d.fraction.1 d.fraction.2 := by
  unfold nearest?
  dsimp only
  split
  · next hzero =>
    symm
    rw [Magnitude.nearest?_eq_some_iff d.fraction_pos, ← value_eq_fraction, value, hzero,
      Nat.cast_zero, zero_mul]
    exact rounds_zero_of_le le_rfl (zpow_nonneg (by norm_num) _)
  split
  · next hzero hsmall =>
    symm
    rw [Magnitude.nearest?_eq_some_iff d.fraction_pos, ← value_eq_fraction]
    refine rounds_zero_of_le d.value_nonneg (d.value_lt.le.trans ?_)
    exact zpow_le_zpow_right₀ (by norm_num) hsmall.le
  split
  · next hzero _ hlarge =>
    symm
    rw [Magnitude.nearest?_eq_none_iff d.fraction_pos, ← value_eq_fraction]
    refine overflow_le_of_le (le_trans ?_ (le_value hzero))
    exact zpow_le_zpow_right₀ (by norm_num) (Int.le_sub_one_of_lt hlarge)
  · unfold fraction
    split <;> rfl

/-- A decimal is rounded to the one magnitude that its value rounds to. -/
theorem nearest?_eq_some_iff {d : Decimal} {x : Magnitude} :
    d.nearest? = some x ↔ x.Rounds d.value := by
  rw [nearest?_eq_fraction, Magnitude.nearest?_eq_some_iff d.fraction_pos, value_eq_fraction]

/-- A decimal is out of range from the half-way point above the largest magnitude on. -/
theorem nearest?_eq_none_iff {d : Decimal} :
    d.nearest? = none ↔ (2 ^ 54 - 1) * 2 ^ 970 ≤ d.value := by
  rw [nearest?_eq_fraction, Magnitude.nearest?_eq_none_iff d.fraction_pos, value_eq_fraction]

theorem exists_rounds_iff {d : Decimal} :
    (∃ x : Magnitude, x.Rounds d.value) ↔ d.value < (2 ^ 54 - 1) * 2 ^ 970 := by
  rw [← not_le, ← nearest?_eq_none_iff, Option.eq_none_iff_forall_ne_some]
  simp [nearest?_eq_some_iff]

theorem toBinary64_eq_finite_iff {d : Decimal} {negative sign : Bool} {x : Magnitude} :
    d.toBinary64 negative = .finite sign x ↔ negative = sign ∧ x.Rounds d.value := by
  rw [toBinary64, ← nearest?_eq_some_iff]
  cases d.nearest? with
  | none => simp
  | some y => simp

theorem toBinary64_eq_infinite_iff {d : Decimal} {negative sign : Bool} :
    d.toBinary64 negative = .infinite sign ↔
      negative = sign ∧ (2 ^ 54 - 1) * 2 ^ 970 ≤ d.value := by
  rw [toBinary64, ← nearest?_eq_none_iff]
  cases d.nearest? with
  | none => simp
  | some y => simp

theorem toBinary64_ne_nan (d : Decimal) (negative : Bool) : d.toBinary64 negative ≠ .nan := by
  unfold toBinary64
  cases d.nearest? with
  | none => exact Binary64.noConfusion
  | some y => exact Binary64.noConfusion

end Dotpath.Decimal
