import Dotpath.Proofs.Decimal.Value

/-!
# Shortest decimals

The search for the shortest decimal of a magnitude goes from grid to finer grid and never fails: on
the grid of seventeen digits neighbours are closer together than the half-way points around the
magnitude. So the decimal that it finds rounds to the magnitude (`rounds_shortest`).
-/

namespace Dotpath.Magnitude

/-! ## Points of a grid -/

theorem quartersOfOne_eq : quartersOfOne = Nat.pow 2 1076 := by decide +kernel

theorem grid_pos (exponent : Int) : 0 < (grid exponent).1 ∧ 0 < (grid exponent).2 := by
  unfold grid
  rw [← quartersOfOne_eq]
  split
  · exact ⟨quartersOfOne_pos, Nat.pow_pos (by decide)⟩
  · exact ⟨Nat.mul_pos (Nat.pow_pos (by decide)) quartersOfOne_pos, Nat.one_pos⟩

theorem grid_eq (exponent : Int) :
    ((grid exponent).1 : ℚ) / (grid exponent).2 = 10 ^ exponent * quartersOfOne := by
  unfold grid
  rw [← quartersOfOne_eq]
  split
  · next hneg =>
    obtain ⟨n, rfl⟩ := Int.exists_eq_neg_ofNat hneg.le
    rw [zpow_neg, zpow_natCast, Int.natAbs_neg, Int.natAbs_natCast, Nat.pow_eq, inv_mul_eq_div,
      Nat.cast_pow, Nat.cast_ofNat]
  · next hnonneg =>
    obtain ⟨n, rfl⟩ := Int.eq_ofNat_of_zero_le (not_lt.1 hnonneg)
    rw [zpow_natCast, Int.natAbs_natCast, Nat.pow_eq, Nat.cast_one, div_one, Nat.cast_mul,
      Nat.cast_pow, Nat.cast_ofNat]

theorem reads_iff_takes {x : Magnitude} {exponent : Int} {digits : Nat} :
    x.reads exponent digits = true
      ↔ x.Takes (digits * (grid exponent).1) (grid exponent).2 := by
  unfold reads Takes
  dsimp only
  split <;> simp

/-- A point of a grid reads as `x` if its value rounds to `x`. -/
theorem reads_iff {x : Magnitude} {exponent : Int} {digits : Nat} :
    x.reads exponent digits = true ↔ x.Rounds (Decimal.value ⟨digits, exponent⟩) := by
  have hvalue : Decimal.value ⟨digits, exponent⟩ * quartersOfOne
      = (digits * (grid exponent).1 : ℕ) / (grid exponent).2 := by
    rw [Decimal.value, mul_assoc, ← grid_eq, Nat.cast_mul, mul_div_assoc]
  rw [reads_iff_takes, rounds_iff_takes (grid_pos exponent).2 hvalue]

theorem reads_of_onGrid? {x : Magnitude} {exponent : Int} {digits : Nat}
    (h : x.onGrid? exponent = some digits) : x.reads exponent digits = true := by
  unfold onGrid? at h
  dsimp only at h
  split at h
  · exact nomatch h
  · next hdown _ => exact Option.some.inj h ▸ hdown
  · next _ hup => exact Option.some.inj h ▸ hup
  · next hdown hup =>
    split at h
    · exact Option.some.inj h ▸ hdown
    · exact Option.some.inj h ▸ hup

theorem takes_of_between {x : Magnitude} {num den : Nat} (hlow : x.bounds.1 * den < num)
    (hhigh : num < x.bounds.2 * den) : x.Takes num den := by
  unfold Takes
  split
  · exact ⟨hlow.le, hhigh.le⟩
  · exact ⟨hlow, hhigh⟩

/-- Points of a grid that is finer than the half-way points are apart: one of the two around a
magnitude is between them. -/
theorem takes_neighbour {x : Magnitude} {num den : Nat} (hne : x.mantissa ≠ 0) (hden : 0 < den)
    (hnum : 0 < num) (hfine : 10 ^ 16 * num ≤ 4 * x.units * den) :
    x.Takes (4 * x.units * den / num * num) den ∨
      x.Takes ((4 * x.units * den / num + 1) * num) den := by
  have hscale : 0 < 2 ^ x.exponent * den := Nat.mul_pos (Nat.two_pow_pos _) hden
  have hlong : x.units * den < 2 * fullMantissa * (2 ^ x.exponent * den) := by
    rw [← Nat.mul_assoc]
    exact Nat.mul_lt_mul_of_pos_right x.units_lt hden
  have hsmall : 2 ^ x.exponent * den ≤ x.units * den :=
    Nat.mul_le_mul_right den (Nat.le_mul_of_pos_left _ (Nat.pos_of_ne_zero hne))
  have hfull : x.mantissa = fullMantissa →
      x.units * den = fullMantissa * (2 ^ x.exponent * den) := by
    intro hmantissa
    rw [units, hmantissa, Nat.pow_eq, Nat.mul_assoc]
  have hlow := congrArg (· * den) x.low_eq
  have hhigh := congrArg (· * den) x.high_eq
  have hdown := Nat.div_mul_le_self (4 * x.units * den) num
  have hup : 4 * x.units * den < 4 * x.units * den / num * num + num := Nat.lt_div_mul_add hnum
  rw [Nat.sub_mul, Nat.mul_assoc, Nat.mul_assoc] at hlow
  rw [Nat.add_mul, Nat.mul_assoc, Nat.mul_assoc] at hhigh
  rw [Nat.mul_assoc 4] at hfine hdown hup
  rw [Nat.add_mul, Nat.one_mul, Nat.mul_assoc 4]
  generalize x.units * den = point at *
  generalize 2 ^ x.exponent * den = scale at *
  generalize 4 * point / num * num = down at *
  unfold fullMantissa at *
  -- The gaps to the two points add up to one step of the grid, so one of the gaps is small enough.
  split at hlow
  · next hirregular =>
    have hpoint := hfull hirregular.1
    rcases Nat.lt_or_ge (4 * point - scale) down with hnear | hfar
    · exact .inl (takes_of_between (by omega) (by omega))
    · exact .inr (takes_of_between (by omega) (by omega))
  · rcases Nat.lt_or_ge (4 * point - 2 * scale) down with hnear | hfar
    · exact .inl (takes_of_between (by omega) (by omega))
    · exact .inr (takes_of_between (by omega) (by omega))

/-- A grid this fine has a point between the half-way points, as these are further apart than
neighbours on the grid. -/
theorem exists_onGrid? {x : Magnitude} {exponent : Int} (hne : x.mantissa ≠ 0)
    (hfine : 10 ^ 16 * (grid exponent).1 ≤ 4 * x.units * (grid exponent).2) :
    ∃ digits, x.onGrid? exponent = some digits := by
  obtain ⟨hnum, hden⟩ := grid_pos exponent
  have hsome := takes_neighbour hne hden hnum hfine
  rw [← reads_iff_takes, ← reads_iff_takes] at hsome
  unfold onGrid?
  dsimp only
  split
  · next hdown hup => simp [hdown, hup] at hsome
  · exact ⟨_, rfl⟩
  · exact ⟨_, rfl⟩
  · exact ⟨_, (apply_ite some ..).symm⟩

/-! ## The order of a magnitude -/

theorem order_cases (x : Magnitude) :
    let guess : ℤ := (Decimal.digitCount x.units : ℤ) - Decimal.digitCount unitsOfOne
    (x.order = guess ∧ (10 : ℚ) ^ guess * unitsOfOne ≤ x.units) ∨ x.order = guess - 1 := by
  unfold order unitsOfOne
  dsimp only
  generalize Nat.pow 2 1074 = den
  generalize (Decimal.digitCount x.units : ℤ) - Decimal.digitCount den = guess
  by_cases hneg : guess < 0
  · simp only [if_pos hneg]
    split
    · next hreached =>
      refine .inl ⟨rfl, ?_⟩
      obtain ⟨n, rfl⟩ := Int.exists_eq_neg_ofNat hneg.le
      rw [Int.natAbs_neg, Int.natAbs_natCast, Nat.pow_eq] at hreached
      rw [zpow_neg, zpow_natCast, inv_mul_le_iff₀ (by positivity), mul_comm]
      exact_mod_cast hreached
    · exact .inr rfl
  · simp only [if_neg hneg]
    split
    · next hreached =>
      refine .inl ⟨rfl, ?_⟩
      obtain ⟨n, rfl⟩ := Int.eq_ofNat_of_zero_le (not_lt.1 hneg)
      rw [Int.natAbs_natCast, Nat.pow_eq] at hreached
      rw [zpow_natCast, mul_comm]
      exact_mod_cast hreached
    · exact .inr rfl

/-- Lengths tell the order of a quotient up to one. -/
theorem pow_digitCount_sub_le {num : Nat} (den : Nat) (hnum : num ≠ 0) :
    (10 : ℚ) ^ ((Decimal.digitCount num : ℤ) - Decimal.digitCount den - 1) * den ≤ num := by
  have hpos : 0 < Decimal.digitCount num := List.length_pos_iff.2 Nat.toDigits_ne_nil
  have hlow : (10 : ℚ) ^ (Decimal.digitCount num - 1) ≤ num := by
    exact_mod_cast Decimal.pow_digitCount_le hnum
  have hhigh : (den : ℚ) ≤ 10 ^ Decimal.digitCount den := by
    exact_mod_cast (Decimal.lt_pow_digitCount den).le
  have hexponent : (Decimal.digitCount num : ℤ) - Decimal.digitCount den - 1
      + Decimal.digitCount den = (Decimal.digitCount num - 1 : ℕ) := by omega
  calc (10 : ℚ) ^ ((Decimal.digitCount num : ℤ) - Decimal.digitCount den - 1) * den
      ≤ 10 ^ ((Decimal.digitCount num : ℤ) - Decimal.digitCount den - 1)
        * 10 ^ Decimal.digitCount den :=
        mul_le_mul_of_nonneg_left hhigh (zpow_nonneg (by norm_num) _)
    _ = 10 ^ (Decimal.digitCount num - 1) := by
        rw [← zpow_natCast, ← zpow_natCast, ← zpow_add₀ (by norm_num), hexponent]
    _ ≤ num := hlow

/-- The order of a magnitude is at most that of its first digit. -/
theorem order_le {x : Magnitude} (hne : x.mantissa ≠ 0) :
    (10 : ℚ) ^ x.order * unitsOfOne ≤ x.units := by
  rcases x.order_cases with ⟨horder, hle⟩ | horder
  · rw [horder]
    exact hle
  · rw [horder]
    exact pow_digitCount_sub_le unitsOfOne (units_ne_zero hne)

theorem exists_onGrid?_order {x : Magnitude} (hne : x.mantissa ≠ 0) :
    ∃ digits, x.onGrid? (x.order - 16) = some digits := by
  refine exists_onGrid? hne ?_
  obtain ⟨-, hden⟩ := grid_pos (x.order - 16)
  have hpos : (0 : ℚ) < (grid (x.order - 16)).2 := Nat.cast_pos.2 hden
  have hgrid := grid_eq (x.order - 16)
  rw [div_eq_iff hpos.ne'] at hgrid
  have hshift : (10 : ℚ) ^ 16 * 10 ^ (x.order - 16) = 10 ^ x.order := by
    have hexponent : ((16 : ℕ) : ℤ) + (x.order - 16) = x.order := by omega
    rw [← zpow_natCast, ← zpow_add₀ (by norm_num), hexponent]
  have h : (10 : ℚ) ^ 16 * (grid (x.order - 16)).1 ≤ 4 * x.units * (grid (x.order - 16)).2 := by
    calc (10 : ℚ) ^ 16 * (grid (x.order - 16)).1
        = 10 ^ x.order * (4 * unitsOfOne) * (grid (x.order - 16)).2 := by
          rw [hgrid, ← hshift, quartersOfOne, Nat.cast_mul, Nat.cast_ofNat, mul_assoc, mul_assoc,
            mul_assoc, mul_assoc, mul_assoc]
      _ = 4 * (10 ^ x.order * unitsOfOne) * (grid (x.order - 16)).2 := by
          rw [mul_left_comm]
      _ ≤ 4 * x.units * (grid (x.order - 16)).2 := by
          refine mul_le_mul_of_nonneg_right ?_ hpos.le
          exact mul_le_mul_of_nonneg_left (order_le hne) (by norm_num)
  exact_mod_cast h

/-! ## The shortest decimal -/

theorem rounds_of_onGrid? {x : Magnitude} {exponent : Int} {digits : Nat}
    (h : x.onGrid? exponent = some digits) : x.Rounds (Decimal.value ⟨digits, exponent⟩) :=
  reads_iff.1 (reads_of_onGrid? h)

theorem rounds_shortestFrom {x : Magnitude} (hne : x.mantissa ≠ 0) (fuel : Nat) :
    x.Rounds (x.shortestFrom x.order (fuel + 1)).value := by
  induction fuel with
  | zero =>
    obtain ⟨digits, hdigits⟩ := exists_onGrid?_order hne
    have hlast : x.order - (17 - ((0 : ℕ) + 1 : ℤ)) = x.order - 16 := by norm_num
    rw [shortestFrom, hlast, hdigits]
    exact rounds_of_onGrid? hdigits
  | succ fuel ih =>
    rw [shortestFrom]
    split
    · next hdigits => exact rounds_of_onGrid? hdigits
    · exact ih

theorem value_normalize (fuel : Nat) (d : Decimal) : (d.normalize fuel).value = d.value := by
  fun_induction Decimal.normalize fuel d with
  | case1 => rfl
  | case2 d fuel hzeros ih =>
    have hdigits := Nat.div_mul_cancel (Nat.dvd_of_mod_eq_zero hzeros.1)
    have hcast : (d.digits : ℚ) = (d.digits / 10 : ℕ) * 10 := by exact_mod_cast hdigits.symm
    rw [ih, Decimal.value, Decimal.value, hcast, zpow_add_one₀ (by norm_num)]
    ring
  | case3 => rfl

theorem rounds_zero : zero.Rounds 0 :=
  Decimal.rounds_zero_of_le le_rfl (zpow_nonneg (by norm_num) _)

theorem eq_zero_of_mantissa {x : Magnitude} (h : x.mantissa = 0) : x = zero := by
  obtain ⟨m, e, hcanonical⟩ := x
  obtain rfl : m = 0 := h
  obtain rfl : e = 0 := hcanonical.2.2.resolve_left (by decide)
  rfl

/-- The shortest decimal of a magnitude rounds to it. -/
theorem rounds_shortest (x : Magnitude) : x.Rounds x.shortest.value := by
  unfold shortest
  split
  · next hzero =>
    have hx : x = zero := eq_zero_of_mantissa (by simpa [isZero] using hzero)
    rw [hx, Decimal.value, Nat.cast_zero, zero_mul]
    exact rounds_zero
  · next hne =>
    rw [value_normalize]
    exact rounds_shortestFrom (by simpa [isZero] using hne) 16

end Dotpath.Magnitude
