import Dotpath.Decimal
import Mathlib.Algebra.Order.Field.Rat
import Mathlib.Data.Rat.Cast.Order
import Mathlib.Tactic.NormNum
import Mathlib.Tactic.Ring

/-!
# Rounding quotients

A number rounds to the magnitude between whose half-way points it lies; a half-way point itself goes
to the even mantissa. Rounding a quotient finds that magnitude. Its exponent is that of the
quotient, unless rounding makes the mantissa too long, which is then carried.

Results:
1. `nearest?_eq_some_iff`: which magnitude is found.
2. `nearest?_eq_none_iff`: which quotients are too large.
-/

namespace Dotpath.Magnitude

/-! ## Rounding to an integer -/

theorem roundHalfEven_eq_iff {num den m : Nat} (hden : 0 < den) :
    roundHalfEven num den = m ↔
      if m % 2 = 0 then (4 * m - 2) * den ≤ 4 * num ∧ 4 * num ≤ (4 * m + 2) * den
      else (4 * m - 2) * den < 4 * num ∧ 4 * num < (4 * m + 2) * den := by
  have hlow : (4 * m - 2) * den = 4 * (m * den) - 2 * den := by rw [Nat.sub_mul, Nat.mul_assoc]
  have hhigh : (4 * m + 2) * den = 4 * (m * den) + 2 * den := by rw [Nat.add_mul, Nat.mul_assoc]
  have hnum : num / den * den + num % den = num := Nat.div_add_mod' num den
  have hrest : num % den < den := Nat.mod_lt num hden
  rw [hlow, hhigh, roundHalfEven]
  generalize num / den = q at hnum ⊢
  generalize num % den = r at hnum hrest ⊢
  -- Only the two integers around the quotient can be near enough.
  rcases Nat.lt_trichotomy m q with hlt | rfl | hgt
  · have hle : (m + 1) * den ≤ q * den := Nat.mul_le_mul_right den hlt
    rw [Nat.succ_mul] at hle
    split_ifs <;> omega
  · have hle : m = 0 ∨ den ≤ m * den := by
      rcases Nat.eq_zero_or_pos m with hzero | hpos
      · exact .inl hzero
      · exact .inr (Nat.le_mul_of_pos_left den hpos)
    split_ifs <;> omega
  · rcases Nat.eq_or_lt_of_le hgt with rfl | hgt
    · rw [show q.succ * den = q * den + den from Nat.succ_mul q den]
      split_ifs <;> omega
    · have hle : (q + 1 + 1) * den ≤ m * den := Nat.mul_le_mul_right den hgt
      rw [Nat.succ_mul, Nat.succ_mul] at hle
      split_ifs <;> omega

theorem roundHalfEven_bounds (num : Nat) {den : Nat} (hden : 0 < den) :
    (4 * roundHalfEven num den - 2) * den ≤ 4 * num ∧
      4 * num ≤ (4 * roundHalfEven num den + 2) * den := by
  have h := (roundHalfEven_eq_iff hden).1 (Eq.refl (roundHalfEven num den))
  split at h
  · exact h
  · exact h.imp Nat.le_of_lt Nat.le_of_lt

theorem roundHalfEven_near (num den : Nat) :
    num / den ≤ roundHalfEven num den ∧ roundHalfEven num den ≤ num / den + 1 := by
  rw [roundHalfEven]
  split_ifs <;> omega

/-! ## Half-way points -/

theorem units_lt (x : Magnitude) : x.units < 2 * fullMantissa * 2 ^ x.exponent :=
  Nat.mul_lt_mul_of_pos_right x.canonical.1 (Nat.two_pow_pos _)

theorem le_units {x : Magnitude} (h : 0 < x.exponent) :
    fullMantissa * 2 ^ x.exponent ≤ x.units :=
  Nat.mul_le_mul_right _ (x.canonical.2.2.resolve_right h.ne')

theorem units_ne_zero {x : Magnitude} (hne : x.mantissa ≠ 0) : x.units ≠ 0 :=
  Nat.mul_ne_zero hne (Nat.two_pow_pos _).ne'

theorem low_eq (x : Magnitude) :
    x.bounds.1 = 4 * x.units
      - (if x.mantissa = fullMantissa ∧ 0 < x.exponent then 1 else 2) * 2 ^ x.exponent := by
  rw [bounds, units, Nat.pow_eq, Nat.sub_mul, Nat.mul_assoc]

theorem high_eq (x : Magnitude) : x.bounds.2 = 4 * x.units + 2 * 2 ^ x.exponent := by
  rw [bounds, units, Nat.pow_eq, Nat.add_mul, Nat.mul_assoc]

/-! ## The numbers that a magnitude takes -/

/-- `num / den` quarters of a unit round to `x`: they lie between the half-way points to its
neighbours, or on one of them if the mantissa is even. -/
def Takes (x : Magnitude) (num den : Nat) : Prop :=
  if x.mantissa % 2 = 0 then x.bounds.1 * den ≤ num ∧ num ≤ x.bounds.2 * den
  else x.bounds.1 * den < num ∧ num < x.bounds.2 * den

/-- The exponent at which a quotient has a mantissa of full length, or else zero. -/
theorem log2_div_eq_iff {num den exponent : Nat} (hden : 0 < den) :
    (num / den).log2 - 52 = exponent ↔
      num < 2 * fullMantissa * (den * 2 ^ exponent) ∧
        (exponent = 0 ∨ fullMantissa * (den * 2 ^ exponent) ≤ num) := by
  have hupper :
      num < 2 * fullMantissa * (den * 2 ^ exponent) ↔ num / den < 2 ^ (53 + exponent) := by
    rw [show 2 * fullMantissa = 2 ^ 53 from rfl, Nat.div_lt_iff_lt_mul hden, Nat.pow_add,
      Nat.mul_assoc, Nat.mul_comm den]
  have hlower : fullMantissa * (den * 2 ^ exponent) ≤ num ↔ 2 ^ (52 + exponent) ≤ num / den := by
    rw [Nat.le_div_iff_mul_le hden, Nat.pow_add, Nat.mul_assoc (2 ^ 52), Nat.mul_comm den]
  rw [hupper, hlower]
  rcases Nat.eq_zero_or_pos (num / den) with hzero | hpos
  · rw [hzero]
    have : 0 < 2 ^ (52 + exponent) := Nat.two_pow_pos _
    have : 0 < 2 ^ (53 + exponent) := Nat.two_pow_pos _
    simp [Nat.log2_zero]
    omega
  · rw [← Nat.log2_lt hpos.ne', ← Nat.le_log2 hpos.ne']
    omega

/-- A mantissa with its exponent, where a mantissa that rounding has made too long is carried. -/
def carry? (mantissa exponent : Nat) : Option Magnitude :=
  let carried :=
    if mantissa = 2 * fullMantissa then (fullMantissa, exponent + 1) else (mantissa, exponent)
  if canonical : carried.1 < 2 * fullMantissa ∧ carried.2 ≤ 2045 ∧
      (fullMantissa ≤ carried.1 ∨ carried.2 = 0) then
    some ⟨carried.1, carried.2, canonical⟩
  else none

theorem carry?_eq_some_iff {mantissa exponent : Nat} {x : Magnitude} :
    carry? mantissa exponent = some x ↔
      (x.mantissa = mantissa ∧ x.exponent = exponent) ∨
        (mantissa = 2 * fullMantissa ∧ x.mantissa = fullMantissa ∧ x.exponent = exponent + 1) := by
  obtain ⟨m, e, hcanonical⟩ := x
  by_cases hfull : mantissa = 2 * fullMantissa
  · simp [carry?, hfull]
    omega
  · simp [carry?, hfull]
    omega

theorem large_of_carry?_eq_none {mantissa exponent : Nat} (hlong : mantissa ≤ 2 * fullMantissa)
    (hfull : exponent = 0 ∨ fullMantissa ≤ mantissa) (h : carry? mantissa exponent = none) :
    2045 < exponent ∨ (exponent = 2045 ∧ mantissa = 2 * fullMantissa) := by
  by_cases hcarried : mantissa = 2 * fullMantissa
  · simp [carry?, hcarried] at h
    omega
  · simp [carry?, hcarried] at h
    omega

/-- The magnitude nearest to a quotient of units. -/
def ofQuotient? (num den : Nat) : Option Magnitude :=
  let exponent := (num / den).log2 - 52
  carry? (roundHalfEven num (den * 2 ^ exponent)) exponent

/-- One, in units. -/
@[irreducible]
def unitsOfOne : Nat := Nat.pow 2 1074

theorem nearest?_eq_ofQuotient? (num den : Nat) :
    nearest? num den = ofQuotient? (num * unitsOfOne) den := by
  unfold nearest? ofQuotient? carry? unitsOfOne
  rfl

/-- Away from the least mantissa of full length the half-way points are equally far. -/
theorem takes_iff_roundHalfEven {x : Magnitude} {num den : Nat} (hden : 0 < den)
    (hregular : ¬(x.mantissa = fullMantissa ∧ 0 < x.exponent)) :
    x.Takes (4 * num) den ↔ roundHalfEven num (den * 2 ^ x.exponent) = x.mantissa := by
  have hscale : 0 < den * 2 ^ x.exponent := Nat.mul_pos hden (Nat.two_pow_pos _)
  rw [roundHalfEven_eq_iff hscale, Takes, bounds, if_neg hregular]
  simp only [Nat.pow_eq, Nat.mul_assoc, Nat.mul_comm den]

/-- Below the least mantissa of full length the neighbour is only half as far. -/
theorem takes_iff_of_fullMantissa {x : Magnitude} {num den exponent : Nat}
    (hmantissa : x.mantissa = fullMantissa) (hexponent : x.exponent = exponent + 1) :
    x.Takes (4 * num) den ↔
      (8 * fullMantissa - 2) * (den * 2 ^ exponent) ≤ 4 * num ∧
        4 * num ≤ (8 * fullMantissa + 4) * (den * 2 ^ exponent) := by
  have hlow : (4 * fullMantissa - 1) * (2 ^ exponent * 2) * den
      = (8 * fullMantissa - 2) * (den * 2 ^ exponent) := by
    unfold fullMantissa
    ring
  have hhigh : (4 * fullMantissa + 2) * (2 ^ exponent * 2) * den
      = (8 * fullMantissa + 4) * (den * 2 ^ exponent) := by
    unfold fullMantissa
    ring
  rw [Takes, bounds, hmantissa, hexponent, if_pos (by decide), if_pos ⟨rfl, Nat.succ_pos _⟩,
    ← hlow, ← hhigh]
  simp only [Nat.pow_eq, Nat.pow_succ]

theorem ofQuotient?_of_regular {x : Magnitude} {num den : Nat} (hden : 0 < den)
    (hregular : ¬(x.mantissa = fullMantissa ∧ 0 < x.exponent)) :
    ofQuotient? num den = some x ↔ x.Takes (4 * num) den := by
  have hscale : 0 < den * 2 ^ x.exponent := Nat.mul_pos hden (Nat.two_pow_pos _)
  rw [ofQuotient?, carry?_eq_some_iff, takes_iff_roundHalfEven hden hregular]
  constructor
  · rintro (⟨hmantissa, hexponent⟩ | ⟨-, hmantissa, hexponent⟩)
    · rw [hmantissa, hexponent]
    · exact absurd ⟨hmantissa, hexponent ▸ Nat.succ_pos _⟩ hregular
  · intro hround
    obtain ⟨hlow, hhigh⟩ := hround ▸ roundHalfEven_bounds num hscale
    obtain ⟨hlong, -, hfull⟩ := x.canonical
    have hexponent : (num / den).log2 - 52 = x.exponent := by
      refine (log2_div_eq_iff hden).2 ⟨?_, ?_⟩
      · have : (4 * x.mantissa + 2) * (den * 2 ^ x.exponent)
            ≤ (8 * fullMantissa - 2) * (den * 2 ^ x.exponent) :=
          Nat.mul_le_mul_right _ (by omega)
        unfold fullMantissa at *
        omega
      · rcases Nat.eq_zero_or_pos x.exponent with hzero | hpos
        · exact .inl hzero
        · have : 4 * fullMantissa * (den * 2 ^ x.exponent)
              ≤ (4 * x.mantissa - 2) * (den * 2 ^ x.exponent) :=
            Nat.mul_le_mul_right _ (by omega)
          unfold fullMantissa at *
          omega
    left
    rw [hexponent, hround]
    exact ⟨rfl, rfl⟩

theorem ofQuotient?_of_fullMantissa {x : Magnitude} {num den exponent : Nat} (hden : 0 < den)
    (hmantissa : x.mantissa = fullMantissa) (hexponent : x.exponent = exponent + 1) :
    ofQuotient? num den = some x ↔ x.Takes (4 * num) den := by
  have hscale : 0 < den * 2 ^ exponent := Nat.mul_pos hden (Nat.two_pow_pos _)
  have hdouble : den * 2 ^ (exponent + 1) = 2 * (den * 2 ^ exponent) := by
    rw [Nat.pow_succ, ← Nat.mul_assoc, Nat.mul_comm]
  rw [ofQuotient?, carry?_eq_some_iff, takes_iff_of_fullMantissa hmantissa hexponent, hmantissa,
    hexponent]
  constructor
  · rintro (⟨hround, hlog⟩ | ⟨hround, -, hlog⟩)
    · have hlower := ((log2_div_eq_iff hden).1 hlog.symm).2
      have hbounds := roundHalfEven_bounds num (hdouble ▸ Nat.mul_pos Nat.two_pos hscale)
      rw [← hlog] at hround
      rw [← hround, hdouble] at hbounds
      rw [hdouble] at hlower
      unfold fullMantissa at *
      omega
    · rw [← Nat.succ_injective hlog] at hround
      have hbounds := hround ▸ roundHalfEven_bounds num hscale
      unfold fullMantissa at *
      omega
  · rintro ⟨hlow, hhigh⟩
    -- Below the magnitude the quotient has the smaller exponent, and its mantissa is carried.
    rcases Nat.lt_or_ge num (2 * fullMantissa * (den * 2 ^ exponent)) with hbelow | habove
    · have hlog : (num / den).log2 - 52 = exponent := by
        refine (log2_div_eq_iff hden).2 ⟨hbelow, .inr ?_⟩
        unfold fullMantissa at *
        omega
      rw [hlog]
      refine .inr ⟨(roundHalfEven_eq_iff hscale).2 ?_, rfl, rfl⟩
      rw [if_pos (by decide)]
      unfold fullMantissa at *
      omega
    · have hlog : (num / den).log2 - 52 = exponent + 1 := by
        rw [log2_div_eq_iff hden, hdouble]
        unfold fullMantissa at *
        omega
      rw [hlog]
      refine .inl ⟨((roundHalfEven_eq_iff (by omega)).2 ?_).symm, rfl⟩
      rw [if_pos (by decide), hdouble]
      unfold fullMantissa at *
      omega

theorem ofQuotient?_eq_some_iff {num den : Nat} {x : Magnitude} (hden : 0 < den) :
    ofQuotient? num den = some x ↔ x.Takes (4 * num) den := by
  by_cases hregular : ¬(x.mantissa = fullMantissa ∧ 0 < x.exponent)
  · exact ofQuotient?_of_regular hden hregular
  · obtain ⟨hmantissa, hpos⟩ := not_not.1 hregular
    obtain ⟨exponent, hexponent⟩ := Nat.exists_eq_succ_of_ne_zero hpos.ne'
    exact ofQuotient?_of_fullMantissa hden hmantissa hexponent

/-! ## Quotients that are too large -/

/-- The exponent of the largest magnitudes. -/
def maxExponent : Nat := 2045

theorem exponent_le (x : Magnitude) : x.exponent ≤ maxExponent := x.canonical.2.1

/-- The half-way point above the largest magnitude, in quarters of a unit. -/
def overflow : Nat := (8 * fullMantissa - 2) * 2 ^ maxExponent

theorem lt_of_takes {x : Magnitude} {num den : Nat} (hden : 0 < den) (h : x.Takes num den) :
    num < overflow * den := by
  have hlong : x.mantissa < 2 * fullMantissa := x.canonical.1
  have hpow : 2 ^ x.exponent * den ≤ 2 ^ maxExponent * den :=
    Nat.mul_le_mul_right den (Nat.pow_le_pow_right Nat.two_pos x.exponent_le)
  have hpos : 0 < 2 ^ maxExponent * den := Nat.mul_pos (Nat.two_pow_pos _) hden
  have hhigh : x.bounds.2 * den = (4 * x.mantissa + 2) * (2 ^ x.exponent * den) := Nat.mul_assoc ..
  rw [Takes, hhigh] at h
  rw [overflow, Nat.mul_assoc]
  split at h
  · calc num ≤ (4 * x.mantissa + 2) * (2 ^ x.exponent * den) := h.2
      _ ≤ (8 * fullMantissa - 6) * (2 ^ maxExponent * den) := Nat.mul_le_mul (by omega) hpow
      _ < (8 * fullMantissa - 2) * (2 ^ maxExponent * den) :=
        Nat.mul_lt_mul_of_pos_right (by decide) hpos
  · calc num < (4 * x.mantissa + 2) * (2 ^ x.exponent * den) := h.2
      _ ≤ (8 * fullMantissa - 2) * (2 ^ maxExponent * den) := Nat.mul_le_mul (by omega) hpow

theorem two_mul_two_pow_le {i j : Nat} (h : i < j) : 2 * 2 ^ i ≤ 2 ^ j := by
  rw [← Nat.pow_succ']
  exact Nat.pow_le_pow_right Nat.two_pos h

theorem overflow_le_of_ofQuotient? {num den : Nat} (hden : 0 < den)
    (h : ofQuotient? num den = none) : overflow * den ≤ 4 * num := by
  unfold ofQuotient? at h
  dsimp only at h
  generalize hexponent : (num / den).log2 - 52 = exponent at h
  obtain ⟨hupper, hlower⟩ := (log2_div_eq_iff hden).1 hexponent
  have hscale : 0 < den * 2 ^ exponent := Nat.mul_pos hden (Nat.two_pow_pos exponent)
  have hlong : num / (den * 2 ^ exponent) < 2 * fullMantissa :=
    (Nat.div_lt_iff_lt_mul hscale).2 hupper
  have hfull := hlower.imp_right (Nat.le_div_iff_mul_le hscale).2
  obtain ⟨hdown, hup⟩ := roundHalfEven_near num (den * 2 ^ exponent)
  rw [overflow, Nat.mul_assoc, Nat.mul_comm _ den]
  rcases large_of_carry?_eq_none (by omega) (hfull.imp_right (·.trans hdown)) h with
    hlarge | ⟨htop, hcarried⟩
  · have hpow : den * (2 * 2 ^ maxExponent) ≤ den * 2 ^ exponent :=
      Nat.mul_le_mul_left den (two_mul_two_pow_le hlarge)
    have hle : fullMantissa * (den * 2 ^ exponent) ≤ num := by
      refine hlower.resolve_left ?_
      rintro rfl
      exact absurd hlarge (by decide)
    rw [Nat.mul_left_comm] at hpow
    unfold fullMantissa at *
    omega
  · obtain ⟨hlow, -⟩ := roundHalfEven_bounds num hscale
    rw [hcarried, show exponent = maxExponent from htop] at hlow
    exact hlow

theorem ofQuotient?_eq_none_iff {num den : Nat} (hden : 0 < den) :
    ofQuotient? num den = none ↔ overflow * den ≤ 4 * num := by
  refine ⟨overflow_le_of_ofQuotient? hden, fun hle => ?_⟩
  refine Option.eq_none_iff_forall_ne_some.2 fun x hx => ?_
  exact absurd (lt_of_takes hden ((ofQuotient?_eq_some_iff hden).1 hx)) (Nat.not_lt.2 hle)

/-! ## Rounding numbers -/

/-- One, in quarters of a unit. -/
@[irreducible]
def quartersOfOne : Nat := 4 * unitsOfOne

theorem quartersOfOne_pos : 0 < quartersOfOne := by decide +kernel

theorem four_mul_units (num : Nat) : 4 * (num * unitsOfOne) = num * quartersOfOne := by
  rw [quartersOfOne, Nat.mul_left_comm]

/-- A number rounds to `x`: it lies between the half-way points to the neighbours of `x`, or on one
of them if the mantissa is even. -/
def Rounds (x : Magnitude) (value : ℚ) : Prop :=
  if x.mantissa % 2 = 0 then
    x.bounds.1 ≤ value * quartersOfOne ∧ value * quartersOfOne ≤ x.bounds.2
  else x.bounds.1 < value * quartersOfOne ∧ value * quartersOfOne < x.bounds.2

theorem rounds_iff_takes {x : Magnitude} {value : ℚ} {num den : Nat} (hden : 0 < den)
    (hvalue : value * quartersOfOne = num / den) : x.Rounds value ↔ x.Takes num den := by
  have hpos : (0 : ℚ) < den := Nat.cast_pos.2 hden
  rw [Rounds, Takes, hvalue, le_div_iff₀ hpos, div_le_iff₀ hpos, lt_div_iff₀ hpos,
    div_lt_iff₀ hpos]
  norm_cast

/-- Rounding finds the one magnitude that a quotient rounds to. -/
theorem nearest?_eq_some_iff {num den : Nat} {x : Magnitude} (hden : 0 < den) :
    nearest? num den = some x ↔ x.Rounds (num / den) := by
  have hvalue : (num / den : ℚ) * quartersOfOne = (num * quartersOfOne : ℕ) / den := by
    rw [div_mul_eq_mul_div, Nat.cast_mul]
  rw [nearest?_eq_ofQuotient?, ofQuotient?_eq_some_iff hden, four_mul_units,
    rounds_iff_takes hden hvalue]

theorem overflow_eq : (overflow : ℚ) = (2 ^ 54 - 1) * 2 ^ 970 * quartersOfOne := by
  have h : overflow = (2 ^ 54 - 1) * 2 ^ 970 * quartersOfOne := by decide +kernel
  rw [h, Nat.cast_mul, Nat.cast_mul, Nat.cast_pow, Nat.cast_sub (by decide), Nat.cast_pow,
    Nat.cast_ofNat, Nat.cast_one]

/-- Rounding finds nothing from the half-way point above the largest magnitude on. -/
theorem nearest?_eq_none_iff {num den : Nat} (hden : 0 < den) :
    nearest? num den = none ↔ (2 ^ 54 - 1) * 2 ^ 970 ≤ (num / den : ℚ) := by
  have hpos : (0 : ℚ) < den := Nat.cast_pos.2 hden
  have hquarters : (0 : ℚ) < quartersOfOne := Nat.cast_pos.2 quartersOfOne_pos
  rw [nearest?_eq_ofQuotient?, ofQuotient?_eq_none_iff hden, four_mul_units, le_div_iff₀ hpos,
    ← mul_le_mul_iff_of_pos_right hquarters, mul_right_comm, ← overflow_eq,
    ← Nat.cast_mul, ← Nat.cast_mul, Nat.cast_le]

end Dotpath.Magnitude
