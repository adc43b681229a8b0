/-!
# Bytes as text

UTF-8 in its strict form: every character has its shortest encoding and surrogates have none. A
fault says how many bytes before it are good and how many bytes the faulty stretch has.
-/

namespace Dotpath.Text

/-- Where bytes stop being text. -/
structure Utf8Fault where
  /-- The number of bytes before the fault. -/
  start : Nat
  /-- The number of bytes that no character can begin with; `none` if the text ends within one. -/
  length : Option Nat
deriving DecidableEq, Repr

namespace Utf8

/-- How many bytes follow a first byte, and the range that the next one must lie in. -/
def lead? (b : Nat) : Option (Nat × Nat × Nat) :=
  if b < 0x80 then some (0, 0, 0)
  else if 0xC2 ≤ b ∧ b ≤ 0xDF then some (1, 0x80, 0xBF)
  else if b = 0xE0 then some (2, 0xA0, 0xBF)
  else if b = 0xED then some (2, 0x80, 0x9F)
  else if 0xE1 ≤ b ∧ b ≤ 0xEF then some (2, 0x80, 0xBF)
  else if b = 0xF0 then some (3, 0x90, 0xBF)
  else if 0xF1 ≤ b ∧ b ≤ 0xF3 then some (3, 0x80, 0xBF)
  else if b = 0xF4 then some (3, 0x80, 0x8F)
  else none

/-- What a first byte contributes to the code point. -/
def leadBits (b : Nat) : Nat :=
  if b < 0x80 then b else if b < 0xE0 then b - 0xC0 else if b < 0xF0 then b - 0xE0 else b - 0xF0

/-- A byte is expected next: the code point so far, the bytes to come, the range of the next one,
and the number of bytes since the character began. -/
structure Pending where
  bits : Nat
  missing : Nat
  low : Nat
  high : Nat
  taken : Nat

/-- Reads bytes, `good` of which have been turned into characters before the pending one. -/
def decodeFrom (good : Nat) : Option Pending → List Nat → Except Utf8Fault (List Char)
  | none, [] => .ok []
  | some _, [] => .error ⟨good, none⟩
  | none, b :: bs =>
    match lead? b with
    | none => .error ⟨good, some 1⟩
    | some (0, _) => (decodeFrom (good + 1) none bs).map (Char.ofNat b :: ·)
    | some (missing, low, high) => decodeFrom good (some ⟨leadBits b, missing, low, high, 1⟩) bs
  | some p, b :: bs =>
    if p.low ≤ b ∧ b ≤ p.high then
      let bits := 64 * p.bits + (b - 0x80)
      if p.missing ≤ 1 then
        (decodeFrom (good + p.taken + 1) none bs).map (Char.ofNat bits :: ·)
      else decodeFrom good (some ⟨bits, p.missing - 1, 0x80, 0xBF, p.taken + 1⟩) bs
    else .error ⟨good, some p.taken⟩

end Utf8

/-- The characters that bytes stand for. -/
def decodeUtf8 (bytes : List UInt8) : Except Utf8Fault (List Char) :=
  Utf8.decodeFrom 0 none (bytes.map (·.toNat))

/-- The bytes of a character. -/
def encodeUtf8 (c : Char) : List UInt8 :=
  let n := c.toNat
  let more (shift : Nat) : UInt8 := .ofNat (0x80 + n / Nat.pow 2 shift % 64)
  if n < 0x80 then [.ofNat n]
  else if n < 0x800 then [.ofNat (0xC0 + n / 64), more 0]
  else if n < 0x10000 then [.ofNat (0xE0 + n / 4096), more 6, more 0]
  else [.ofNat (0xF0 + n / 262144), more 12, more 6, more 0]

/-- The number of bytes of a text. -/
def byteLength : List Char → Nat
  | [] => 0
  | c :: cs => c.utf8Size + byteLength cs

end Dotpath.Text
