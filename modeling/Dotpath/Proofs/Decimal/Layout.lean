import Dotpath.Decimal.Layout
import Dotpath.Proofs.Decimal.Literal
import Dotpath.Proofs.Decimal.Shortest

/-!
# Reading written numbers back

A layout writes a finite number as a literal of the same sign whose decimal rounds to its magnitude,
so reading the literal gives the number back, as long as the layout's own plus sign can be read.

Results:
1. `exists_spells_magnitude`: a written magnitude is a literal that rounds to it.
2. `float?_write`: a written finite number is read back.
3. `spellsInteger_toString`: so is a written integer.
-/

namespace Dotpath

/-! ## Zeros around digits -/

namespace Path

theorem decimal_append (front back : List Char) :
    decimal (front ++ back) = decimal front * 10 ^ back.length + decimal back := by
  simp [decimal, Nat.ofDigits_append, Nat.add_comm, Nat.mul_comm]

theorem decimal_replicate_zero (count : Nat) : decimal (List.replicate count '0') = 0 := by
  induction count with
  | zero => rfl
  | succ count ih =>
    rw [List.replicate_succ', decimal_append, ih]
    rfl

end Path

namespace Literal

theorem spellsNatural_toDigits (n : Nat) : SpellsNatural (Nat.toDigits 10 n) n where
  nonempty := Nat.toDigits_ne_nil
  digits _ hc := Nat.isDigit_of_mem_toDigits (by decide) (by decide) hc
  value_eq := by
    rw [← Path.digitsValue_eq_decimal]
    exact Nat.ofDigitChars_ten_toDigits

theorem isDigit_of_mem_zeros {count : Nat} {c : Char} (hc : c ∈ List.replicate count '0') :
    c.isDigit = true := by
  rw [List.eq_of_mem_replicate hc]
  rfl

theorem SpellsNatural.zeros_append {digits : List Char} {n : Nat} (h : SpellsNatural digits n)
    (count : Nat) : SpellsNatural (List.replicate count '0' ++ digits) n where
  nonempty := List.append_ne_nil_of_right_ne_nil _ h.nonempty
  digits c hc := (List.mem_append.1 hc).elim isDigit_of_mem_zeros (h.digits c)
  value_eq := by
    rw [Path.decimal_append, Path.decimal_replicate_zero, Nat.zero_mul, Nat.zero_add, h.value_eq]

theorem SpellsNatural.append_zeros {digits : List Char} {n : Nat} (h : SpellsNatural digits n)
    (count : Nat) : SpellsNatural (digits ++ List.replicate count '0') (n * 10 ^ count) where
  nonempty := List.append_ne_nil_of_left_ne_nil h.nonempty _
  digits c hc := (List.mem_append.1 hc).elim (h.digits c) isDigit_of_mem_zeros
  value_eq := by
    rw [Path.decimal_append, Path.decimal_replicate_zero, List.length_replicate, h.value_eq,
      Nat.add_zero]

theorem SpellsNatural.spells_point {whole fraction : List Char} {n : Nat}
    (h : SpellsNatural (whole ++ fraction) n) :
    SpellsDecimal (whole ++ '.' :: fraction) ⟨n, -fraction.length⟩ := by
  have hspells := SpellsDecimal.point h .absent
  rwa [List.append_nil, Int.zero_sub] at hspells

end Literal

namespace FloatLayout

open Literal

/-! ## Written magnitudes -/

/-- Digits written around a point spell the number whose first digit has the exponent `order`. -/
theorem spells_plain {digits : List Char} {n : Nat} (h : SpellsNatural digits n) (order : Int) :
    ∃ d, SpellsDecimal (plain digits order) d ∧
      d.value = n * 10 ^ (order + 1 - digits.length) := by
  unfold plain
  split
  · next hneg =>
    have hspells : SpellsNatural (['0'] ++ (List.replicate (order.natAbs - 1) '0' ++ digits)) n :=
      (h.zeros_append _).zeros_append 1
    refine ⟨_, hspells.spells_point, ?_⟩
    have hexponent : -((List.replicate (order.natAbs - 1) '0' ++ digits).length : ℤ)
        = order + 1 - digits.length := by
      rw [List.length_append, List.length_replicate]
      omega
    rw [Decimal.value, hexponent]
  · next hnonneg =>
    obtain ⟨m, rfl⟩ := Int.eq_ofNat_of_zero_le (not_lt.1 hnonneg)
    rw [Int.natAbs_natCast]
    dsimp only
    split
    · next hshort =>
      refine ⟨_, ((h.append_zeros (m + 1 - digits.length)).append_zeros 1).spells_point, ?_⟩
      have hexponent : (m : ℤ) + 1 - digits.length = ((m + 1 - digits.length : ℕ) : ℤ) := by omega
      rw [Decimal.value, hexponent, zpow_natCast]
      push_cast
      rw [List.length_singleton, Nat.cast_one, zpow_neg_one, mul_inv_cancel_right₀ (by norm_num)]
    · next hlong =>
      have hspells : SpellsNatural (digits.take (m + 1) ++ digits.drop (m + 1)) n := by
        rwa [List.take_append_drop]
      refine ⟨_, hspells.spells_point, ?_⟩
      have hexponent : -((digits.drop (m + 1)).length : ℤ) = m + 1 - digits.length := by
        rw [List.length_drop]
        omega
      rw [Decimal.value, hexponent]

/-- What a layout writes before an exponent that is not negative has to be a sign. -/
theorem spells_scientific {layout : FloatLayout} (hplus : IsSign layout.plus.toList false)
    {digits : List Char} {n : Nat} (h : SpellsNatural digits n) (order : Int) :
    ∃ d, SpellsDecimal (layout.scientific digits order) d ∧
      d.value = n * 10 ^ (order + 1 - digits.length) := by
  have hinteger : SpellsInteger ((if order < 0 then ['-'] else layout.plus.toList) ++
      Nat.toDigits 10 order.natAbs) order := by
    have hdigits := spellsNatural_toDigits order.natAbs
    split
    · next hneg =>
      have hinteger := SpellsInteger.mk .minus hdigits
      rwa [if_pos rfl, show -(order.natAbs : ℤ) = order by omega] at hinteger
    · next hnonneg =>
      have hinteger := SpellsInteger.mk hplus hdigits
      rwa [if_neg Bool.false_ne_true, show (order.natAbs : ℤ) = order by omega] at hinteger
  have hexponent := SpellsExponent.present (.inl rfl : 'e' = 'e' ∨ 'e' = 'E') hinteger
  unfold scientific
  dsimp only
  split
  · next hshort =>
    have hone : digits.length = 1 := le_antisymm hshort (List.length_pos_iff.2 h.nonempty)
    refine ⟨_, .whole h hexponent, ?_⟩
    rw [Decimal.value, hone]
    norm_num
  · have hspells : SpellsNatural (digits.take 1 ++ digits.drop 1) n := by
      rwa [List.take_append_drop]
    rw [List.append_assoc, List.cons_append]
    refine ⟨_, .point hspells hexponent, ?_⟩
    have hvalue : order - (digits.drop 1).length = order + 1 - digits.length := by
      have hpos := List.length_pos_iff.2 h.nonempty
      rw [List.length_drop]
      omega
    rw [Decimal.value, hvalue]

/-- A written magnitude spells a decimal that rounds to it. -/
theorem exists_spells_magnitude {layout : FloatLayout} (hplus : IsSign layout.plus.toList false)
    (x : Magnitude) :
    ∃ d, SpellsDecimal (layout.magnitude x) d ∧ x.Rounds d.value := by
  have hspells := spellsNatural_toDigits x.shortest.digits
  have hvalue : x.shortest.value = x.shortest.digits
      * 10 ^ (x.shortest.order + 1 - (Nat.toDigits 10 x.shortest.digits).length) := by
    have hexponent : x.shortest.order + 1 - (Nat.toDigits 10 x.shortest.digits).length
        = x.shortest.exponent := by
      unfold Decimal.order Decimal.digitCount
      omega
    rw [hexponent, Decimal.value]
  have hrounds := hvalue ▸ x.rounds_shortest
  unfold magnitude
  dsimp only
  split
  · obtain ⟨d, hd, heq⟩ := spells_plain hspells x.shortest.order
    exact ⟨d, hd, heq ▸ hrounds⟩
  · obtain ⟨d, hd, heq⟩ := spells_scientific hplus hspells x.shortest.order
    exact ⟨d, hd, heq ▸ hrounds⟩

/-- A written magnitude has a point, or the mark of an exponent. -/
theorem point_or_mark (layout : FloatLayout) (x : Magnitude) :
    '.' ∈ layout.magnitude x ∨ 'e' ∈ layout.magnitude x := by
  unfold magnitude
  dsimp only
  split
  · refine .inl ?_
    unfold plain
    dsimp only
    split
    · simp
    · split <;> simp
  · refine .inr ?_
    unfold scientific
    simp

/-! ## Reading back -/

theorem toList_write_finite (layout : FloatLayout) (negative : Bool) (x : Magnitude) :
    (layout.write (.finite negative x)).toList
      = (if negative then ['-'] else []) ++ layout.magnitude x := by
  cases negative <;> simp [write]

/-- Reading a written finite number gives it back, zero with its sign. -/
theorem float?_write {layout : FloatLayout} (hplus : IsSign layout.plus.toList false)
    (negative : Bool) (x : Magnitude) :
    float? (layout.write (.finite negative x)).toList = some (.finite negative x) := by
  obtain ⟨d, hspells, hrounds⟩ := exists_spells_magnitude hplus x
  have hsign : IsSign (if negative then ['-'] else []) negative := by
    cases negative
    · exact .absent
    · exact .minus
  rw [float?_eq_some_iff, toList_write_finite]
  refine ⟨negative, d, .mk hsign hspells, ?_⟩
  rw [Decimal.toBinary64, Decimal.nearest?_eq_some_iff.2 hrounds]

end FloatLayout

/-- A written integer spells it. -/
theorem Literal.spellsInteger_toString (n : Int) : SpellsInteger (toString n).toList n := by
  cases n with
  | ofNat n =>
    have htext : (toString (Int.ofNat n)).toList = Nat.toDigits 10 n := by
      simp [toString, Int.repr]
    rw [htext]
    exact .mk .absent (spellsNatural_toDigits n)
  | negSucc n =>
    have htext : (toString (Int.negSucc n)).toList = '-' :: Nat.toDigits 10 (n + 1) := by
      simp [toString, Int.repr]
    rw [htext]
    exact .mk .minus (spellsNatural_toDigits (n + 1))

end Dotpath
