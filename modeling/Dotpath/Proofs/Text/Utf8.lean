import Dotpath.Files

/-!
# Bytes of a text

The bytes of a text are read back as that text. A character has one to four bytes; the first tells
how many follow and what range the second lies in. Texts are ordered as their bytes are.

Results: `decodeFrom_encodeUtf8` and `encodeUtf8_append_lt` for one character, `decodeUtf8_bytesOf`
and `bytesOf_le_bytesOf_iff` for a text.
-/

namespace Dotpath.Text

namespace Utf8

/-! ## Single bytes -/

theorem decodeFrom_lead {good b missing low high : Nat} {bs : List Nat}
    (h : lead? b = some (missing + 1, low, high)) :
    decodeFrom good none (b :: bs)
      = decodeFrom good (some ⟨leadBits b, missing + 1, low, high, 1⟩) bs := by
  rw [decodeFrom]
  simp only [h]

theorem decodeFrom_more {good b : Nat} {bs : List Nat} {p : Pending}
    (h : p.low ≤ b ∧ b ≤ p.high) (hmissing : 1 < p.missing) :
    decodeFrom good (some p) (b :: bs)
      = decodeFrom good
          (some ⟨64 * p.bits + (b - 0x80), p.missing - 1, 0x80, 0xBF, p.taken + 1⟩) bs := by
  rw [decodeFrom, if_pos h, if_neg (Nat.not_le.2 hmissing)]

theorem decodeFrom_last {good b : Nat} {bs : List Nat} {p : Pending}
    (h : p.low ≤ b ∧ b ≤ p.high) (hmissing : p.missing ≤ 1) :
    decodeFrom good (some p) (b :: bs)
      = (decodeFrom (good + p.taken + 1) none bs).map
          (Char.ofNat (64 * p.bits + (b - 0x80)) :: ·) := by
  rw [decodeFrom, if_pos h, if_pos hmissing]

/-! ## The first byte -/

theorem lead?_two {n : Nat} (hlow : 0x80 ≤ n) (hhigh : n < 0x800) :
    lead? (0xC0 + n / 64) = some (1, 0x80, 0xBF) ∧ leadBits (0xC0 + n / 64) = n / 64 := by
  have h : ¬0xC0 + n / 64 < 0x80 := by omega
  have hrange : 0xC2 ≤ 0xC0 + n / 64 ∧ 0xC0 + n / 64 ≤ 0xDF := by omega
  refine ⟨by rw [lead?, if_neg h, if_pos hrange], ?_⟩
  rw [leadBits, if_neg h, if_pos (by omega)]
  omega

/-- No surrogate has three bytes, and nothing that fits two. -/
theorem lead?_three {n : Nat} (hlow : 0x800 ≤ n) (hhigh : n < 0x10000)
    (hvalid : n < 0xD800 ∨ 0xDFFF < n) :
    ∃ low high, lead? (0xE0 + n / 4096) = some (2, low, high) ∧
      leadBits (0xE0 + n / 4096) = n / 4096 ∧
      low ≤ 0x80 + n / 64 % 64 ∧ 0x80 + n / 64 % 64 ≤ high := by
  have h : ¬0xE0 + n / 4096 < 0x80 := by omega
  have hrange : ¬(0xC2 ≤ 0xE0 + n / 4096 ∧ 0xE0 + n / 4096 ≤ 0xDF) := by omega
  have hbits : leadBits (0xE0 + n / 4096) = n / 4096 := by
    rw [leadBits, if_neg h, if_neg (by omega), if_pos (by omega)]
    omega
  rw [lead?, if_neg h, if_neg hrange, hbits]
  split
  · exact ⟨_, _, rfl, rfl, by omega, by omega⟩
  · split
    · exact ⟨_, _, rfl, rfl, by omega, by omega⟩
    · rw [if_pos (by omega)]
      exact ⟨_, _, rfl, rfl, by omega, by omega⟩

theorem lead?_four {n : Nat} (hlow : 0x10000 ≤ n) (hhigh : n < 0x110000) :
    ∃ low high, lead? (0xF0 + n / 262144) = some (3, low, high) ∧
      leadBits (0xF0 + n / 262144) = n / 262144 ∧
      low ≤ 0x80 + n / 4096 % 64 ∧ 0x80 + n / 4096 % 64 ≤ high := by
  have h : ¬0xF0 + n / 262144 < 0x80 := by omega
  have hbits : leadBits (0xF0 + n / 262144) = n / 262144 := by
    rw [leadBits, if_neg h, if_neg (by omega), if_neg (by omega)]
    omega
  rw [lead?, if_neg h, if_neg (by omega), if_neg (by omega), if_neg (by omega), if_neg (by omega),
    hbits]
  split
  · exact ⟨_, _, rfl, rfl, by omega, by omega⟩
  · split
    · exact ⟨_, _, rfl, rfl, by omega, by omega⟩
    · rw [if_pos (by omega)]
      exact ⟨_, _, rfl, rfl, by omega, by omega⟩

end Utf8

/-! ## Characters and texts -/

open Utf8

theorem toNat_valid (c : Char) :
    c.toNat < 0xD800 ∨ 0xDFFF < c.toNat ∧ c.toNat < 0x110000 :=
  c.valid

theorem toNat_tail (k : Nat) : (UInt8.ofNat (0x80 + k % 64)).toNat = 0x80 + k % 64 :=
  UInt8.toNat_ofNat_of_lt' (Nat.lt_of_lt_of_le (by omega : 0x80 + k % 64 < 192) (by decide))

theorem encodeUtf8_eq (c : Char) :
    (encodeUtf8 c).map (·.toNat)
      = if c.toNat < 0x80 then [c.toNat]
        else if c.toNat < 0x800 then [0xC0 + c.toNat / 64, 0x80 + c.toNat % 64]
        else if c.toNat < 0x10000 then
          [0xE0 + c.toNat / 4096, 0x80 + c.toNat / 64 % 64, 0x80 + c.toNat % 64]
        else [0xF0 + c.toNat / 262144, 0x80 + c.toNat / 4096 % 64, 0x80 + c.toNat / 64 % 64,
          0x80 + c.toNat % 64] := by
  have hvalid := toNat_valid c
  have hbyte {k : Nat} (h : k < 256) : (UInt8.ofNat k).toNat = k := UInt8.toNat_ofNat_of_lt' h
  have hzero : c.toNat / Nat.pow 2 0 = c.toNat := Nat.div_one _
  have hsix : Nat.pow 2 6 = 64 := rfl
  have htwelve : Nat.pow 2 12 = 4096 := rfl
  unfold encodeUtf8
  dsimp only
  rw [hzero, hsix, htwelve]
  split
  · simp only [List.map_cons, List.map_nil]
    rw [hbyte (by omega)]
  · split
    · simp only [List.map_cons, List.map_nil, toNat_tail]
      rw [hbyte (by omega)]
    · split
      · simp only [List.map_cons, List.map_nil, toNat_tail]
        rw [hbyte (by omega)]
      · simp only [List.map_cons, List.map_nil, toNat_tail]
        rw [hbyte (by omega)]

theorem decodeFrom_encodeUtf8 (c : Char) (bs : List Nat) (good : Nat) :
    ∃ after, decodeFrom good none ((encodeUtf8 c).map (·.toNat) ++ bs)
      = (decodeFrom after none bs).map (c :: ·) := by
  have hvalid := toNat_valid c
  have hchar {n : Nat} (h : n = c.toNat) : Char.ofNat n = c := by rw [h, Char.ofNat_toNat]
  have htail (k : Nat) : 0x80 ≤ 0x80 + k % 64 ∧ 0x80 + k % 64 ≤ 0xBF := by omega
  rw [encodeUtf8_eq]
  split
  · next h =>
    have hlead : lead? c.toNat = some (0, 0, 0) := by rw [lead?, if_pos h]
    refine ⟨good + 1, ?_⟩
    simp [decodeFrom, hlead]
  · split
    · obtain ⟨hlead, hbits⟩ := lead?_two (n := c.toNat) (by omega) (by omega)
      refine ⟨good + 1 + 1, ?_⟩
      simp only [List.cons_append, List.nil_append]
      rw [decodeFrom_lead hlead, decodeFrom_last (htail _) (Nat.le_refl 1),
        hchar (by dsimp only; omega)]
    · split
      · obtain ⟨low, high, hlead, hbits, hrange⟩ :=
          lead?_three (n := c.toNat) (by omega) (by omega) (by omega)
        refine ⟨good + (1 + 1) + 1, ?_⟩
        simp only [List.cons_append, List.nil_append]
        rw [decodeFrom_lead hlead, decodeFrom_more hrange (by simp),
          decodeFrom_last (htail _) (Nat.le_refl 1), hchar (by dsimp only; omega)]
      · obtain ⟨low, high, hlead, hbits, hrange⟩ :=
          lead?_four (n := c.toNat) (by omega) (by omega)
        refine ⟨good + (1 + 1 + 1) + 1, ?_⟩
        simp only [List.cons_append, List.nil_append]
        rw [decodeFrom_lead hlead, decodeFrom_more hrange (by simp),
          decodeFrom_more (htail _) (by simp), decodeFrom_last (htail _) (Nat.le_refl 1),
          hchar (by dsimp only; omega)]

theorem decodeUtf8_bytesOf (text : String) :
    decodeUtf8 (Files.bytesOf text) = .ok text.toList := by
  have h (cs : List Char) (good : Nat) :
      decodeFrom good none ((cs.flatMap encodeUtf8).map (·.toNat)) = .ok cs := by
    induction cs generalizing good with
    | nil => rfl
    | cons c cs ih =>
      obtain ⟨after, hafter⟩ := decodeFrom_encodeUtf8 c ((cs.flatMap encodeUtf8).map (·.toNat)) good
      rw [List.flatMap_cons, List.map_append, hafter, ih]
      rfl
  exact h text.toList 0

/-! ## The order of bytes -/

theorem lt_of_map_toNat_lt {as bs : List UInt8} (h : as.map (·.toNat) < bs.map (·.toNat)) :
    as < bs := by
  induction as generalizing bs with
  | nil =>
    cases bs with
    | nil => exact absurd h (List.lt_irrefl _)
    | cons b bs => exact List.nil_lt_cons b bs
  | cons a as ih =>
    cases bs with
    | nil => exact absurd h (List.not_lt_nil _)
    | cons b bs =>
      rw [List.map_cons, List.map_cons, List.cons_lt_cons_iff] at h
      rw [List.cons_lt_cons_iff]
      rcases h with hlt | ⟨heq, hlt⟩
      · exact .inl (UInt8.lt_iff_toNat_lt.2 hlt)
      · exact .inr ⟨UInt8.toNat_inj.1 heq, ih hlt⟩

/-- The bytes of the lesser character come first, whatever follows. -/
theorem encodeUtf8_append_lt {c d : Char} (h : c < d) (more more' : List UInt8) :
    encodeUtf8 c ++ more < encodeUtf8 d ++ more' := by
  have hlt : c.toNat < d.toNat := h
  have hvalid := toNat_valid d
  apply lt_of_map_toNat_lt
  rw [List.map_append, List.map_append, encodeUtf8_eq, encodeUtf8_eq]
  -- The first byte decides between different lengths, and digits in base 64 within one length.
  repeat' split
  all_goals
    simp only [List.cons_append, List.nil_append, List.cons_lt_cons_iff]
    omega

theorem exists_cons_encodeUtf8 (c : Char) : ∃ b bs, encodeUtf8 c = b :: bs := by
  unfold encodeUtf8
  dsimp only
  repeat' split
  all_goals exact ⟨_, _, rfl⟩

theorem bytesOf_lt_bytesOf {a b : String} (h : a < b) : Files.bytesOf a < Files.bytesOf b := by
  have hflatMap : ∀ cs ds : List Char, cs < ds → cs.flatMap encodeUtf8 < ds.flatMap encodeUtf8 := by
    intro cs
    induction cs with
    | nil =>
      intro ds hlt
      cases ds with
      | nil => exact absurd hlt (List.lt_irrefl _)
      | cons d ds =>
        obtain ⟨b, bs, hbytes⟩ := exists_cons_encodeUtf8 d
        rw [List.flatMap_cons, hbytes]
        exact List.nil_lt_cons b _
    | cons c cs ih =>
      intro ds hlt
      cases ds with
      | nil => exact absurd hlt (List.not_lt_nil _)
      | cons d ds =>
        rw [List.flatMap_cons, List.flatMap_cons]
        rcases List.cons_lt_cons_iff.1 hlt with hchar | ⟨rfl, hrest⟩
        · exact encodeUtf8_append_lt hchar _ _
        · exact List.append_left_lt (ih ds hrest)
  exact hflatMap a.toList b.toList h

/-- The order of texts is the order of their bytes. -/
theorem bytesOf_le_bytesOf_iff {a b : String} : Files.bytesOf a ≤ Files.bytesOf b ↔ a ≤ b := by
  constructor
  · intro hle
    refine String.not_lt.1 fun hlt => ?_
    exact List.not_lt.2 hle (bytesOf_lt_bytesOf hlt)
  · intro hle
    refine List.not_lt.1 fun hlt => ?_
    by_cases hless : a < b
    · exact List.lt_asymm hlt (bytesOf_lt_bytesOf hless)
    · obtain rfl := String.le_antisymm hle (String.not_lt.1 hless)
      exact List.lt_irrefl _ hlt

end Dotpath.Text
