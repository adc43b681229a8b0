import Dotpath.Config.Edit
import Dotpath.Proofs.Decimal.Layout
import Dotpath.Proofs.Decimal.Nearest

/-!
# What raw texts stand for

A raw text is a boolean, an integer, a float or else a string. No text spells two of these, so the
order in which they are tried does not show. What is shown for the value that a text stands for is
again a raw text for it, except for floats that are shown without a point.

Results:
1. `rawValue_exact`: which texts stand for which values, in terms of the grammar of literals.
2. `rawValue_overflow`: a literal that is too large stands for an infinite number.
3. `rawValue_format`: the value that the shown text stands for.
-/

namespace Dotpath

namespace Config

open Literal

/-! ## The four readings -/

/-- The text is a boolean in any letter case. -/
def ReadsBool (text : String) (value : Bool) : Prop :=
  text.toList.map Char.toLower = (toString value).toList

/-- The four readings of a raw text, each tried where those before it have failed. -/
theorem rawValue_cases (text : String) :
    (∃ value, rawValue text = .bool value ∧ ReadsBool text value) ∨
    (∃ n, rawValue text = .number (.int n) ∧ integer? 10 text.toList = some n ∧
      Word.holds true 64 n = true) ∨
    (∃ x, rawValue text = .number (.float x) ∧ '.' ∈ text.toList ∧
      float? text.toList = some x) ∨
    rawValue text = .string text := by
  unfold rawValue
  dsimp only
  split
  · next htrue => exact .inl ⟨true, rfl, htrue⟩
  · split
    · next hfalse => exact .inl ⟨false, rfl, hfalse⟩
    · split
      · next n hinteger =>
        exact .inr (.inl ⟨n, rfl, Option.filter_eq_some_iff.1 hinteger⟩)
      · split
        · next x hfloat =>
          split at hfloat
          · next hdot => exact .inr (.inr (.inl ⟨x, rfl, by simpa using hdot, hfloat⟩))
          · exact nomatch hfloat
        · exact .inr (.inr (.inr rfl))

/-- The text is a decimal integer within 64 bits. -/
def ReadsInt (text : String) (n : Int) : Prop :=
  SpellsInteger text.toList n ∧ -2 ^ 63 ≤ n ∧ n < 2 ^ 63

/-- The text is a decimal float with a point. -/
def ReadsFloat (text : String) (negative : Bool) (d : Decimal) : Prop :=
  '.' ∈ text.toList ∧ SpellsFloat text.toList negative d

theorem readsInt_iff {text : String} {n : Int} :
    ReadsInt text n ↔ integer? 10 text.toList = some n ∧ Word.holds true 64 n = true := by
  rw [ReadsInt, integer?_eq_some_iff]
  simp [Word.holds]

theorem readsFloat_iff {text : String} {x : Binary64} :
    (∃ negative d, ReadsFloat text negative d ∧ d.toBinary64 negative = x) ↔
      '.' ∈ text.toList ∧ float? text.toList = some x := by
  simp only [ReadsFloat, float?_eq_some_iff, and_assoc, exists_and_left]

theorem toLower_of_isDigit {c : Char} (h : c.isDigit = true) : c.toLower = c := by
  have hupper : ¬(c.val ≥ 65 ∧ c.val ≤ 90) := by
    simp [Char.isDigit] at h
    intro ⟨hlow, _⟩
    exact absurd (UInt32.le_trans hlow h.2) (by decide)
  exact dif_neg hupper

/-- A text with a digit is no boolean. -/
theorem not_readsBool_of_isDigit {text : String} {c : Char} (hc : c ∈ text.toList)
    (hdigit : c.isDigit = true) (value : Bool) : ¬ReadsBool text value := by
  intro h
  have hmem : c ∈ (toString value).toList := by
    rw [← h]
    exact toLower_of_isDigit hdigit ▸ List.mem_map_of_mem hc
  have hletters : (toString value).toList.any Char.isDigit = false := by
    cases value <;> rfl
  exact absurd (List.any_eq_true.2 ⟨c, hmem, hdigit⟩) (Bool.eq_false_iff.1 hletters)

theorem ReadsInt.not_point {text : String} {n : Int} (h : ReadsInt text n) :
    '.' ∉ text.toList := by
  intro hpoint
  have hchar := h.1.isDigit_or_sign '.' hpoint
  exact absurd hchar (by decide)

theorem rawValue_of_readsBool {text : String} {value : Bool} (h : ReadsBool text value) :
    rawValue text = .bool value := by
  unfold rawValue
  cases value with
  | true => exact if_pos h
  | false =>
    have hne : text.toList.map Char.toLower ≠ "true".toList := by
      rw [h]
      decide
    dsimp only
    rw [if_neg hne]
    exact if_pos h

theorem rawValue_eq_of_not_readsBool {text : String} (h : ∀ value, ¬ReadsBool text value) :
    rawValue text = match (integer? 10 text.toList).filter (Word.holds true 64) with
      | some n => .number (.int n)
      | none =>
        match if text.toList.contains '.' then float? text.toList else none with
        | some value => .number (.float value)
        | none => .string text := by
  unfold rawValue
  exact (if_neg (h true)).trans (if_neg (h false))

theorem rawValue_of_readsInt {text : String} {n : Int} (h : ReadsInt text n) :
    rawValue text = .number (.int n) := by
  obtain ⟨c, hc, hdigit⟩ := h.1.exists_isDigit
  have hfilter : (integer? 10 text.toList).filter (Word.holds true 64) = some n :=
    Option.filter_eq_some_iff.2 (readsInt_iff.1 h)
  rw [rawValue_eq_of_not_readsBool (not_readsBool_of_isDigit hc hdigit), hfilter]

theorem rawValue_of_readsFloat {text : String} {negative : Bool} {d : Decimal}
    (h : ReadsFloat text negative d) :
    rawValue text = .number (.float (d.toBinary64 negative)) := by
  obtain ⟨hpoint, hfloat⟩ := readsFloat_iff.1 ⟨negative, d, h, rfl⟩
  obtain ⟨c, hc, hdigit⟩ := h.2.exists_isDigit
  have hfilter : (integer? 10 text.toList).filter (Word.holds true 64) = none := by
    refine Option.eq_none_iff_forall_ne_some.2 fun n hn => ?_
    exact (readsInt_iff.2 (Option.filter_eq_some_iff.1 hn)).not_point hpoint
  rw [rawValue_eq_of_not_readsBool (not_readsBool_of_isDigit hc hdigit), hfilter]
  dsimp only
  rw [if_pos (List.contains_iff_mem.2 hpoint), hfloat]

theorem rawValue_of_readsNothing {text : String} (hbool : ∀ value, ¬ReadsBool text value)
    (hint : ∀ n, ¬ReadsInt text n) (hfloat : ∀ negative d, ¬ReadsFloat text negative d) :
    rawValue text = .string text := by
  rcases rawValue_cases text with ⟨value, -, h⟩ | ⟨n, -, h⟩ | ⟨x, -, h⟩ | h
  · exact absurd h (hbool value)
  · exact absurd (readsInt_iff.2 h) (hint n)
  · obtain ⟨negative, d, hreads, -⟩ := readsFloat_iff.2 h
    exact absurd hreads (hfloat negative d)
  · exact h

/-- What a raw text stands for, said without an order of the readings. -/
inductive StandsFor (text : String) : Yaml → Prop
  | bool {value : Bool} : ReadsBool text value → StandsFor text (.bool value)
  | int {n : Int} : ReadsInt text n → StandsFor text (.number (.int n))
  | float {negative : Bool} {d : Decimal} : ReadsFloat text negative d →
      StandsFor text (.number (.float (d.toBinary64 negative)))
  | string : (∀ value, ¬ReadsBool text value) → (∀ n, ¬ReadsInt text n) →
      (∀ negative d, ¬ReadsFloat text negative d) → StandsFor text (.string text)

theorem standsFor_rawValue (text : String) : StandsFor text (rawValue text) := by
  by_cases hbool : ∃ value, ReadsBool text value
  · obtain ⟨value, h⟩ := hbool
    exact rawValue_of_readsBool h ▸ .bool h
  by_cases hint : ∃ n, ReadsInt text n
  · obtain ⟨n, h⟩ := hint
    exact rawValue_of_readsInt h ▸ .int h
  by_cases hfloat : ∃ negative d, ReadsFloat text negative d
  · obtain ⟨negative, d, h⟩ := hfloat
    exact rawValue_of_readsFloat h ▸ .float h
  · simp only [not_exists] at hbool hint hfloat
    have h := rawValue_of_readsNothing hbool hint hfloat
    rw [h]
    exact .string hbool hint hfloat

theorem rawValue_eq_iff {text : String} {value : Yaml} :
    rawValue text = value ↔ StandsFor text value := by
  constructor
  · rintro rfl
    exact standsFor_rawValue text
  · intro h
    cases h with
    | bool h => exact rawValue_of_readsBool h
    | int h => exact rawValue_of_readsInt h
    | float h => exact rawValue_of_readsFloat h
    | string hbool hint hfloat => exact rawValue_of_readsNothing hbool hint hfloat

/-! ## Which values texts stand for -/

theorem rawValue_eq_bool_iff {text : String} {value : Bool} :
    rawValue text = .bool value ↔ ReadsBool text value := by
  refine ⟨fun h => ?_, rawValue_of_readsBool⟩
  cases rawValue_eq_iff.1 h with
  | bool hreads => exact hreads

theorem rawValue_eq_int_iff {text : String} {n : Int} :
    rawValue text = .number (.int n) ↔ ReadsInt text n := by
  refine ⟨fun h => ?_, rawValue_of_readsInt⟩
  cases rawValue_eq_iff.1 h with
  | int hreads => exact hreads

theorem rawValue_eq_float_iff {text : String} {x : Binary64} :
    rawValue text = .number (.float x) ↔
      ∃ negative d, ReadsFloat text negative d ∧ d.toBinary64 negative = x := by
  constructor
  · intro h
    cases rawValue_eq_iff.1 h with
    | float hreads => exact ⟨_, _, hreads, rfl⟩
  · rintro ⟨negative, d, hreads, rfl⟩
    exact rawValue_of_readsFloat hreads

theorem rawValue_eq_string_iff {text s : String} :
    rawValue text = .string s ↔ s = text ∧ (∀ value, ¬ReadsBool text value) ∧
      (∀ n, ¬ReadsInt text n) ∧ ∀ negative d, ¬ReadsFloat text negative d := by
  constructor
  · intro h
    cases rawValue_eq_iff.1 h with
    | string hbool hint hfloat => exact ⟨rfl, hbool, hint, hfloat⟩
  · rintro ⟨rfl, hbool, hint, hfloat⟩
    exact rawValue_of_readsNothing hbool hint hfloat

theorem rawValue_eq_finite_iff {text : String} {negative : Bool} {m : Magnitude} :
    rawValue text = .number (.float (.finite negative m)) ↔
      ∃ d, ReadsFloat text negative d ∧ m.Rounds d.value ∧
        ∀ y : Magnitude, |m.value - d.value| ≤ |y.value - d.value| := by
  rw [rawValue_eq_float_iff]
  constructor
  · rintro ⟨_, d, hreads, h⟩
    obtain ⟨rfl, hrounds⟩ := Decimal.toBinary64_eq_finite_iff.1 h
    exact ⟨d, hreads, hrounds, hrounds.nearest⟩
  · rintro ⟨d, hreads, hrounds, -⟩
    exact ⟨negative, d, hreads, Decimal.toBinary64_eq_finite_iff.2 ⟨rfl, hrounds⟩⟩

theorem rawValue_eq_infinite_iff {text : String} {negative : Bool} :
    rawValue text = .number (.float (.infinite negative)) ↔
      ∃ d, ReadsFloat text negative d ∧ (2 ^ 54 - 1) * 2 ^ 970 ≤ d.value := by
  rw [rawValue_eq_float_iff]
  constructor
  · rintro ⟨_, d, hreads, h⟩
    obtain ⟨rfl, hlarge⟩ := Decimal.toBinary64_eq_infinite_iff.1 h
    exact ⟨d, hreads, hlarge⟩
  · rintro ⟨d, hreads, hlarge⟩
    exact ⟨negative, d, hreads, Decimal.toBinary64_eq_infinite_iff.2 ⟨rfl, hlarge⟩⟩

/-- A raw text is a boolean, an integer or a float exactly if it spells one, and otherwise it is
itself. A float is the number that the literal rounds to, and no other one is nearer; from the
half-way point above the largest magnitude on it is infinite. -/
theorem rawValue_exact (text : String) :
    (∀ value, rawValue text = .bool value ↔ ReadsBool text value) ∧
    (∀ n, rawValue text = .number (.int n) ↔ ReadsInt text n) ∧
    (∀ negative, (∃ m, rawValue text = .number (.float (.finite negative m))) ↔
      ∃ d, ReadsFloat text negative d ∧ d.value < (2 ^ 54 - 1) * 2 ^ 970) ∧
    (∀ negative m, rawValue text = .number (.float (.finite negative m)) ↔
      ∃ d, ReadsFloat text negative d ∧ m.Rounds d.value ∧
        ∀ y : Magnitude, |m.value - d.value| ≤ |y.value - d.value|) ∧
    (∀ negative, rawValue text = .number (.float (.infinite negative)) ↔
      ∃ d, ReadsFloat text negative d ∧ (2 ^ 54 - 1) * 2 ^ 970 ≤ d.value) ∧
    rawValue text ≠ .number (.float .nan) ∧
    ∀ s, rawValue text = .string s ↔ s = text ∧ (∀ value, ¬ReadsBool text value) ∧
      (∀ n, ¬ReadsInt text n) ∧ ∀ negative d, ¬ReadsFloat text negative d := by
  refine ⟨fun _ => rawValue_eq_bool_iff, fun _ => rawValue_eq_int_iff, fun negative => ?_,
    fun _ _ => rawValue_eq_finite_iff, fun _ => rawValue_eq_infinite_iff, fun h => ?_,
    fun _ => rawValue_eq_string_iff⟩
  · simp only [rawValue_eq_finite_iff, ← Decimal.exists_rounds_iff]
    constructor
    · rintro ⟨m, d, hreads, hrounds, -⟩
      exact ⟨d, hreads, m, hrounds⟩
    · rintro ⟨d, hreads, m, hrounds⟩
      exact ⟨m, d, hreads, hrounds, hrounds.nearest⟩
  · obtain ⟨negative, d, -, hnan⟩ := rawValue_eq_float_iff.1 h
    exact d.toBinary64_ne_nan negative hnan

/-- The literal of a number beyond the largest one is not refused, and the number is infinite. -/
theorem rawValue_overflow :
    rawValue "1.0e400" = .number (.float (.infinite false)) := by decide +kernel

/-! ## Shown values as raw texts -/

theorem readsBool_toString (value : Bool) : ReadsBool (toString value) value := by
  unfold ReadsBool
  cases value <;> decide

theorem ReadsInt.toString {text : String} {n : Int} (h : ReadsInt text n) :
    ReadsInt (toString n) n :=
  ⟨spellsInteger_toString n, h.2⟩

theorem float?_shown (negative : Bool) (m : Magnitude) :
    float? (Yaml.floats.write (.finite negative m)).toList = some (.finite negative m) :=
  Yaml.floats.float?_write .absent negative m

/-- A finite number is restored from its shown text, as long as there is a point in it. -/
theorem rawValue_of_point {negative : Bool} {m : Magnitude}
    (hpoint : '.' ∈ (Yaml.floats.write (.finite negative m)).toList) :
    rawValue (Yaml.floats.write (.finite negative m)) = .number (.float (.finite negative m)) :=
  rawValue_eq_float_iff.2 (readsFloat_iff.2 ⟨hpoint, float?_shown negative m⟩)

theorem rawValue_of_no_point {negative : Bool} {m : Magnitude}
    (hpoint : '.' ∉ (Yaml.floats.write (.finite negative m)).toList) :
    rawValue (Yaml.floats.write (.finite negative m))
      = .string (Yaml.floats.write (.finite negative m)) := by
  have hmark : 'e' ∈ (Yaml.floats.write (.finite negative m)).toList := by
    rw [FloatLayout.toList_write_finite] at hpoint ⊢
    refine List.mem_append_right _ ((Yaml.floats.point_or_mark m).resolve_left fun h => ?_)
    exact hpoint (List.mem_append_right _ h)
  obtain ⟨_, d, hspells, -⟩ := float?_eq_some_iff.1 (float?_shown negative m)
  obtain ⟨c, hc, hdigit⟩ := hspells.exists_isDigit
  refine rawValue_eq_string_iff.2 ⟨rfl, not_readsBool_of_isDigit hc hdigit, fun n hint => ?_,
    fun _ _ hfloat => hpoint hfloat.1⟩
  exact absurd (hint.1.isDigit_or_sign 'e' hmark) (by decide)

/-- Setting what is shown for a value stores the value again, unless it is a float that is shown
without a point: that text stands for itself. -/
theorem rawValue_format (text : String) :
    (∀ x, rawValue text = .number (.float x) → '.' ∉ (rawValue text).format.toList →
      rawValue (rawValue text).format = .string (rawValue text).format) ∧
    ((∀ negative, rawValue text ≠ .number (.float (.infinite negative))) →
      (∀ x, rawValue text = .number (.float x) → '.' ∈ (rawValue text).format.toList) →
      rawValue (rawValue text).format = rawValue text) := by
  constructor
  · intro x hx hpoint
    rw [hx] at hpoint ⊢
    cases x with
    | finite negative m => exact rawValue_of_no_point hpoint
    | infinite negative => cases negative <;> exact absurd (by decide) hpoint
    | nan => exact absurd (by decide) hpoint
  · intro hfinite hpoint
    have hstands := standsFor_rawValue text
    generalize rawValue text = value at hfinite hpoint hstands ⊢
    cases hstands with
    | bool _ => exact rawValue_of_readsBool (readsBool_toString _)
    | int hint => exact rawValue_of_readsInt hint.toString
    | @float negative d _ =>
      cases hx : d.toBinary64 negative with
      | finite negative m =>
        rw [hx] at hpoint
        exact rawValue_of_point (hpoint _ rfl)
      | infinite negative => exact absurd (congrArg _ (congrArg _ hx)) (hfinite negative)
      | nan => exact absurd hx (d.toBinary64_ne_nan negative)
    | string hbool hint hfloat => exact rawValue_of_readsNothing hbool hint hfloat

/-- The magnitude 0.0001. -/
def tenThousandth : Magnitude := ⟨7378697629483821, 1008, by decide⟩

/-- Another spelling of a float is shown with a point and restored; a round number is not. -/
theorem rawValue_format_small :
    (rawValue "+0.10e-3").format = "0.0001" ∧ rawValue "0.0001" = rawValue "+0.10e-3" ∧
      (rawValue "-50000000000000000.").format = "-5e16" ∧
      rawValue "-5e16" = .string "-5e16" := by
  have hsmall : rawValue "+0.10e-3" = .number (.float (.finite false tenThousandth)) := by
    decide +kernel
  have hshown : (rawValue "+0.10e-3").format = "0.0001" := by decide +kernel
  have hround : (rawValue "-50000000000000000.").format = "-5e16" := by decide +kernel
  have hrestored := (rawValue_format "+0.10e-3").2
    (fun negative h => by simp [hsmall] at h) (fun _ _ => by rw [hshown]; decide)
  have hfloat : ∃ x, rawValue "-50000000000000000." = .number (.float x) :=
    ⟨.finite true ⟨6250000000000000, 1077, by decide⟩, by decide +kernel⟩
  obtain ⟨x, hx⟩ := hfloat
  have hstring := (rawValue_format "-50000000000000000.").1 x hx (by rw [hround]; decide)
  rw [hshown] at hrestored
  rw [hround] at hstring
  exact ⟨hshown, hrestored, hround, hstring⟩

/-- A float that is shown without a point is not restored. -/
theorem rawValue_pointless :
    (rawValue "10000000000000000.0").format = "1e16" ∧
      rawValue "1e16" = .string "1e16" ∧
      rawValue (rawValue "10000000000000000.0").format ≠ rawValue "10000000000000000.0" := by
  decide +kernel

end Config

end Dotpath
