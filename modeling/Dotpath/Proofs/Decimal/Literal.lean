import Dotpath.Decimal.Literal
import Dotpath.Proofs.Path.Grammar

/-!
# What number literals are

The grammar of decimal integers and floats, said without the readers: signs, digits, exponents and
digits around a point. The readers accept exactly the grammar.

Results:
1. `integer?_eq_some_iff`: which texts are integers, and of which value.
2. `float?_eq_some_iff`: which texts are floats, and of which sign and decimal.
-/

namespace Dotpath.Literal

/-! ## The grammar -/

/-- An optional sign; `true` stands for minus. -/
inductive IsSign : List Char → Bool → Prop
  | absent : IsSign [] false
  | plus : IsSign ['+'] false
  | minus : IsSign ['-'] true

/-- One or more decimal digits and their number. -/
structure SpellsNatural (text : List Char) (n : Nat) : Prop where
  nonempty : text ≠ []
  digits : ∀ c ∈ text, c.isDigit = true
  value_eq : Path.decimal text = n

/-- A sign and digits. -/
inductive SpellsInteger : List Char → Int → Prop
  | mk {sign digits : List Char} {negative : Bool} {n : Nat} :
      IsSign sign negative → SpellsNatural digits n →
      SpellsInteger (sign ++ digits) (if negative then -(n : Int) else n)

/-- An optional exponent, `e` or `E` and an integer. -/
inductive SpellsExponent : List Char → Int → Prop
  | absent : SpellsExponent [] 0
  | present {mark : Char} {text : List Char} {exponent : Int} :
      mark = 'e' ∨ mark = 'E' → SpellsInteger text exponent →
      SpellsExponent (mark :: text) exponent

/-- Digits, with a point before, among or after them or none, and an optional exponent. -/
inductive SpellsDecimal : List Char → Decimal → Prop
  | whole {whole rest : List Char} {n : Nat} {exponent : Int} :
      SpellsNatural whole n → SpellsExponent rest exponent →
      SpellsDecimal (whole ++ rest) ⟨n, exponent⟩
  | point {whole fraction rest : List Char} {n : Nat} {exponent : Int} :
      SpellsNatural (whole ++ fraction) n → SpellsExponent rest exponent →
      SpellsDecimal (whole ++ '.' :: (fraction ++ rest)) ⟨n, exponent - fraction.length⟩

/-- A sign and a decimal. -/
inductive SpellsFloat : List Char → Bool → Decimal → Prop
  | mk {sign text : List Char} {negative : Bool} {decimal : Decimal} :
      IsSign sign negative → SpellsDecimal text decimal →
      SpellsFloat (sign ++ text) negative decimal

/-! ## Digits -/

theorem digitValue_of_isDigit {c : Char} (h : c.isDigit = true) :
    digitValue c = c.toNat - '0'.toNat := by
  rw [digitValue, if_pos h]

theorem digitValue_lt_ten_iff (c : Char) : digitValue c < 10 ↔ c.isDigit = true := by
  unfold digitValue
  split
  · next h =>
    have h9 : c.toNat ≤ '9'.toNat := by
      simp [Char.isDigit] at h
      exact h.2
    simp [h]
    exact Nat.lt_succ_of_le (Nat.sub_le_sub_right h9 48)
  · next h => split_ifs <;> simp [h]

theorem foldl_digitValue {text : List Char} (h : ∀ c ∈ text, c.isDigit = true) :
    text.foldl (fun n c => 10 * n + digitValue c) 0 = Path.decimal text := by
  rw [← Path.digitsValue_eq_decimal]
  exact List.foldl_ext _ _ _ fun n c hc => by rw [digitValue_of_isDigit (h c hc)]

theorem natural?_eq_some_iff {text : List Char} {n : Nat} :
    natural? 10 text = some n ↔ SpellsNatural text n := by
  have hcond : (text.isEmpty || !text.all (fun c => digitValue c < 10)) = true ↔
      ¬(text ≠ [] ∧ ∀ c ∈ text, c.isDigit = true) := by
    simp [digitValue_lt_ten_iff, or_iff_not_imp_left]
  unfold natural?
  constructor
  · intro h
    split at h
    · exact nomatch h
    · next hdigits =>
      obtain ⟨hne, hall⟩ := not_not.1 (hcond.not.1 hdigits)
      exact ⟨hne, hall, (foldl_digitValue hall).symm.trans (Option.some.inj h)⟩
  · rintro ⟨hne, hall, rfl⟩
    rw [if_neg (hcond.not.2 (not_not.2 ⟨hne, hall⟩)), foldl_digitValue hall]

/-! ## Signs -/

theorem sign_append {s text : List Char} {negative : Bool} (h : IsSign s negative)
    (hrest : ∀ c ∈ text.head?, c ≠ '-' ∧ c ≠ '+') : sign (s ++ text) = (negative, text) := by
  cases h with
  | absent =>
    unfold sign
    split
    · next htext => exact absurd rfl (hrest '-' (by rw [show text = _ from htext]; rfl)).1
    · next htext => exact absurd rfl (hrest '+' (by rw [show text = _ from htext]; rfl)).2
    · rfl
  | plus => rfl
  | minus => rfl

theorem exists_sign (text : List Char) :
    ∃ s, IsSign s (sign text).1 ∧ text = s ++ (sign text).2 := by
  unfold sign
  split
  · exact ⟨_, .minus, rfl⟩
  · exact ⟨_, .plus, rfl⟩
  · exact ⟨_, .absent, rfl⟩

theorem SpellsNatural.head_ne {text : List Char} {n : Nat} (h : SpellsNatural text n) {d : Char}
    (hd : d.isDigit = false) : ∀ c ∈ text.head?, c ≠ d := by
  rintro c hc rfl
  exact absurd (h.digits c (List.mem_of_mem_head? hc)) (by simp [hd])

theorem integer?_eq (base : Nat) (text : List Char) :
    integer? base text
      = (natural? base (sign text).2).map fun n : Nat =>
          if (sign text).1 then -(n : Int) else n := by
  rw [integer?]
  generalize sign text = parts
  cases hdigits : natural? base parts.2 with
  | none => simp [hdigits]
  | some n => simp [hdigits]

theorem integer?_eq_some_iff {text : List Char} {n : Int} :
    integer? 10 text = some n ↔ SpellsInteger text n := by
  rw [integer?_eq]
  constructor
  · intro h
    obtain ⟨s, hs, htext⟩ := exists_sign text
    obtain ⟨m, hm, rfl⟩ := Option.map_eq_some_iff.1 h
    have hspells := SpellsInteger.mk hs (natural?_eq_some_iff.1 hm)
    rwa [← htext] at hspells
  · rintro ⟨hs, hdigits⟩
    rw [sign_append hs fun c hc => ⟨hdigits.head_ne rfl c hc, hdigits.head_ne rfl c hc⟩]
    exact congrArg (Option.map _) (natural?_eq_some_iff.2 hdigits)

/-! ## Exponents -/

theorem exponent?_eq_some_iff {text : List Char} {exponent : Int} :
    exponent? text = some exponent ↔ SpellsExponent text exponent := by
  constructor
  · intro h
    cases text with
    | nil =>
      obtain rfl := Option.some.inj h
      exact .absent
    | cons mark text =>
      rw [exponent?] at h
      split at h
      · next hmark => exact .present hmark (integer?_eq_some_iff.1 h)
      · exact nomatch h
  · intro h
    cases h with
    | absent => rfl
    | present hmark hinteger =>
      rw [exponent?, if_pos hmark]
      exact integer?_eq_some_iff.2 hinteger

/-! ## Decimals -/

/-- Characters that do not go on with digits. -/
theorem SpellsExponent.head_not_isDigit {text : List Char} {exponent : Int}
    (h : SpellsExponent text exponent) : ∀ c ∈ text.head?, c.isDigit = false := by
  cases h with
  | absent => simp
  | present hmark _ =>
    rintro c hc
    obtain rfl := Option.some.inj hc
    rcases hmark with rfl | rfl <;> rfl

theorem span_isDigit {digits rest : List Char} (hdigits : ∀ c ∈ digits, c.isDigit = true)
    (hrest : ∀ c ∈ rest.head?, c.isDigit = false) :
    (digits ++ rest).takeWhile Char.isDigit = digits ∧
      (digits ++ rest).dropWhile Char.isDigit = rest := by
  have hnone : rest.takeWhile Char.isDigit = [] ∧ rest.dropWhile Char.isDigit = rest := by
    cases rest with
    | nil => exact ⟨rfl, rfl⟩
    | cons c rest => simp [hrest c rfl]
  rw [List.takeWhile_append_of_pos hdigits, List.dropWhile_append_of_pos hdigits, hnone.1, hnone.2,
    List.append_nil]
  exact ⟨rfl, rfl⟩

/-- The digits after a point and what follows them. -/
def fractionOf (rest : List Char) : List Char × List Char :=
  if rest.head? = some '.' then
    (rest.tail.takeWhile Char.isDigit, rest.tail.dropWhile Char.isDigit)
  else ([], rest)

theorem fractionOf_point (rest : List Char) :
    fractionOf ('.' :: rest) = (rest.takeWhile Char.isDigit, rest.dropWhile Char.isDigit) := rfl

theorem fractionOf_of_head?_ne {rest : List Char} (h : rest.head? ≠ some '.') :
    fractionOf rest = ([], rest) := if_neg h

theorem isEmpty_bind (whole fraction rest : List Char) :
    (if whole.isEmpty && fraction.isEmpty then none
      else do
        let digits ← natural? 10 (whole ++ fraction)
        let exponent ← exponent? rest
        pure (⟨digits, exponent - fraction.length⟩ : Decimal))
      = (natural? 10 (whole ++ fraction)).bind fun digits =>
        (exponent? rest).map fun exponent => ⟨digits, exponent - fraction.length⟩ := by
  split
  · next hempty =>
    simp at hempty
    rw [hempty.1, hempty.2]
    rfl
  · cases natural? 10 (whole ++ fraction) with
    | none => rfl
    | some n => cases exponent? rest <;> rfl

theorem decimal?_eq (text : List Char) :
    decimal? text =
      let whole := text.takeWhile Char.isDigit
      let (fraction, rest) := fractionOf (text.dropWhile Char.isDigit)
      (natural? 10 (whole ++ fraction)).bind fun digits =>
        (exponent? rest).map fun exponent => ⟨digits, exponent - fraction.length⟩ := by
  unfold decimal?
  by_cases hpoint : (text.dropWhile Char.isDigit).head? = some '.'
  · obtain ⟨tail, htail⟩ := List.head?_eq_some_iff.1 hpoint
    rw [htail, fractionOf_point]
    exact isEmpty_bind ..
  · rw [fractionOf_of_head?_ne hpoint]
    dsimp only
    split
    · next htail => exact absurd (congrArg List.head? htail) hpoint
    · exact isEmpty_bind ..

theorem fractionOf_of_exponent {rest : List Char} {exponent : Int}
    (h : SpellsExponent rest exponent) : fractionOf rest = ([], rest) := by
  cases h with
  | absent => rfl
  | present hmark _ => rcases hmark with rfl | rfl <;> rfl

theorem decimal?_of_spells {text : List Char} {d : Decimal} (h : SpellsDecimal text d) :
    decimal? text = some d := by
  rw [decimal?_eq]
  cases h with
  | @whole whole rest n exponent hdigits hexponent =>
    obtain ⟨htake, hdrop⟩ := span_isDigit hdigits.digits hexponent.head_not_isDigit
    rw [htake, hdrop, fractionOf_of_exponent hexponent]
    simp [natural?_eq_some_iff.2 hdigits, exponent?_eq_some_iff.2 hexponent]
  | @point whole fraction rest n exponent hdigits hexponent =>
    have hpoint : ∀ c ∈ ('.' :: (fraction ++ rest)).head?, c.isDigit = false := by
      rintro c hc
      obtain rfl := Option.some.inj hc
      rfl
    obtain ⟨htake, hdrop⟩ := span_isDigit
      (fun c hc => hdigits.digits c (List.mem_append_left _ hc)) hpoint
    obtain ⟨hfraction, hrest⟩ := span_isDigit
      (fun c hc => hdigits.digits c (List.mem_append_right _ hc)) hexponent.head_not_isDigit
    rw [htake, hdrop, fractionOf_point, hfraction, hrest]
    simp [natural?_eq_some_iff.2 hdigits, exponent?_eq_some_iff.2 hexponent]

theorem spells_of_decimal? {text : List Char} {d : Decimal} (h : decimal? text = some d) :
    SpellsDecimal text d := by
  have htext : text.takeWhile Char.isDigit ++ text.dropWhile Char.isDigit = text :=
    List.takeWhile_append_dropWhile
  rw [decimal?_eq] at h
  generalize text.takeWhile Char.isDigit = whole at *
  generalize text.dropWhile Char.isDigit = rest at *
  subst htext
  by_cases hpoint : rest.head? = some '.'
  · obtain ⟨tail, rfl⟩ := List.head?_eq_some_iff.1 hpoint
    rw [fractionOf_point] at h
    obtain ⟨n, hn, h⟩ := Option.bind_eq_some_iff.1 h
    obtain ⟨exponent, hexponent, rfl⟩ := Option.map_eq_some_iff.1 h
    have hspells :=
      SpellsDecimal.point (natural?_eq_some_iff.1 hn) (exponent?_eq_some_iff.1 hexponent)
    rwa [List.takeWhile_append_dropWhile] at hspells
  · rw [fractionOf_of_head?_ne hpoint] at h
    obtain ⟨n, hn, h⟩ := Option.bind_eq_some_iff.1 h
    obtain ⟨exponent, hexponent, rfl⟩ := Option.map_eq_some_iff.1 h
    rw [List.append_nil] at hn
    rw [List.length_nil, Nat.cast_zero, Int.sub_zero]
    exact .whole (natural?_eq_some_iff.1 hn) (exponent?_eq_some_iff.1 hexponent)

theorem decimal?_eq_some_iff {text : List Char} {d : Decimal} :
    decimal? text = some d ↔ SpellsDecimal text d :=
  ⟨spells_of_decimal?, decimal?_of_spells⟩

/-! ## Floats -/

theorem SpellsDecimal.head_ne {text : List Char} {d : Decimal} (h : SpellsDecimal text d)
    {c : Char} (hdigit : c.isDigit = false) (hpoint : c ≠ '.') : ∀ a ∈ text.head?, a ≠ c := by
  cases h with
  | whole hdigits _ =>
    obtain ⟨a, rest, rfl⟩ := List.exists_cons_of_ne_nil hdigits.nonempty
    exact hdigits.head_ne hdigit
  | @point whole _ _ _ _ hdigits _ =>
    cases whole with
    | nil =>
      intro a ha
      obtain rfl := Option.some.inj ha
      exact hpoint.symm
    | cons a rest => exact hdigits.head_ne hdigit

theorem float?_eq (text : List Char) :
    float? text = (decimal? (sign text).2).map (·.toBinary64 (sign text).1) := rfl

/-- A float is a sign and a decimal, rounded. -/
theorem float?_eq_some_iff {text : List Char} {x : Binary64} :
    float? text = some x ↔
      ∃ negative d, SpellsFloat text negative d ∧ d.toBinary64 negative = x := by
  rw [float?_eq]
  constructor
  · intro h
    obtain ⟨s, hs, htext⟩ := exists_sign text
    obtain ⟨d, hd, rfl⟩ := Option.map_eq_some_iff.1 h
    have hspells := SpellsFloat.mk hs (decimal?_eq_some_iff.1 hd)
    rw [← htext] at hspells
    exact ⟨_, d, hspells, rfl⟩
  · rintro ⟨_, d, ⟨hs, hdecimal⟩, rfl⟩
    rw [sign_append hs fun c hc =>
      ⟨hdecimal.head_ne rfl (by decide) c hc, hdecimal.head_ne rfl (by decide) c hc⟩]
    exact congrArg (Option.map _) (decimal?_eq_some_iff.2 hdecimal)

/-! ## The characters of literals -/

theorem SpellsInteger.isDigit_or_sign {text : List Char} {n : Int} (h : SpellsInteger text n) :
    ∀ c ∈ text, c.isDigit = true ∨ c = '+' ∨ c = '-' := by
  cases h with
  | mk hsign hdigits =>
    intro c hc
    rcases List.mem_append.1 hc with hc | hc
    · cases hsign with
      | absent => exact absurd hc List.not_mem_nil
      | plus => exact .inr (.inl (List.mem_singleton.1 hc))
      | minus => exact .inr (.inr (List.mem_singleton.1 hc))
    · exact .inl (hdigits.digits c hc)

theorem SpellsNatural.exists_isDigit {text : List Char} {n : Nat} (h : SpellsNatural text n) :
    ∃ c ∈ text, c.isDigit = true := by
  obtain ⟨c, hc⟩ := List.exists_mem_of_ne_nil _ h.nonempty
  exact ⟨c, hc, h.digits c hc⟩

theorem SpellsInteger.exists_isDigit {text : List Char} {n : Int} (h : SpellsInteger text n) :
    ∃ c ∈ text, c.isDigit = true := by
  cases h with
  | mk _ hdigits =>
    obtain ⟨c, hc, hdigit⟩ := hdigits.exists_isDigit
    exact ⟨c, List.mem_append_right _ hc, hdigit⟩

theorem SpellsFloat.exists_isDigit {text : List Char} {negative : Bool} {d : Decimal}
    (h : SpellsFloat text negative d) : ∃ c ∈ text, c.isDigit = true := by
  cases h with
  | mk _ hdecimal =>
    cases hdecimal with
    | whole hdigits _ =>
      obtain ⟨c, hc, hdigit⟩ := hdigits.exists_isDigit
      exact ⟨c, by simp [hc], hdigit⟩
    | point hdigits _ =>
      obtain ⟨c, hc, hdigit⟩ := hdigits.exists_isDigit
      refine ⟨c, ?_, hdigit⟩
      rcases List.mem_append.1 hc with hc | hc <;> simp [hc]

end Dotpath.Literal
