/-!
# 64-bit binary floating point

A finite number is a sign and a magnitude `mantissa * 2 ^ exponent`, measured in units of 2^-1074,
the smallest magnitude above zero. There is one NaN, as its sign and payload are never shown.
Results: the constructors hold each number once, so equality is equality of the written form.
-/

namespace Dotpath

/-- The least mantissa of full length, 2^52. -/
abbrev fullMantissa : Nat := 4503599627370496

/-- A finite magnitude in units of 2^-1074, with the mantissa as large as the format lets it be. -/
structure Magnitude where
  mantissa : Nat
  exponent : Nat
  canonical :
    mantissa < 2 * fullMantissa ∧ exponent ≤ 2045 ∧ (fullMantissa ≤ mantissa ∨ exponent = 0)
deriving DecidableEq, Repr

namespace Magnitude

def zero : Magnitude := ⟨0, 0, by decide⟩

instance : Inhabited Magnitude := ⟨zero⟩

def isZero (magnitude : Magnitude) : Bool :=
  magnitude.mantissa == 0

/-- The magnitude in units of 2^-1074. -/
def units (magnitude : Magnitude) : Nat :=
  magnitude.mantissa * Nat.pow 2 magnitude.exponent

/-- The quotient rounded to the nearest integer, a half to the even neighbour. -/
def roundHalfEven (num den : Nat) : Nat :=
  let down := num / den
  let rest := 2 * (num % den)
  if rest < den then down
  else if den < rest then down + 1
  else down + down % 2

/-- The magnitude nearest to `num / den`, a tie going to the even mantissa; `none` if it is too
large. -/
def nearest? (num den : Nat) : Option Magnitude :=
  let scaled := num * Nat.pow 2 1074
  let exponent := (scaled / den).log2 - 52
  let mantissa := roundHalfEven scaled (den * Nat.pow 2 exponent)
  let carried :=
    if mantissa = 2 * fullMantissa then (fullMantissa, exponent + 1) else (mantissa, exponent)
  if canonical : carried.1 < 2 * fullMantissa ∧ carried.2 ≤ 2045 ∧
      (fullMantissa ≤ carried.1 ∨ carried.2 = 0) then
    some ⟨carried.1, carried.2, canonical⟩
  else none

end Magnitude

/-- A 64-bit binary floating-point number. -/
inductive Binary64 where
  | finite (negative : Bool) (magnitude : Magnitude)
  | infinite (negative : Bool)
  | nan
deriving DecidableEq, Repr

namespace Binary64

instance : Inhabited Binary64 := ⟨finite false .zero⟩

def isFinite : Binary64 → Bool
  | finite _ _ => true
  | _ => false

/-- Numeric equality of keys: the two zeros are equal, and so is NaN to itself. -/
def sameKey : Binary64 → Binary64 → Bool
  | finite s a, finite t b => (a.isZero && b.isZero) || (s == t && a == b)
  | infinite s, infinite t => s == t
  | nan, nan => true
  | _, _ => false

/-- The number nearest to an integer. -/
def ofInt (value : Int) : Binary64 :=
  match Magnitude.nearest? value.natAbs 1 with
  | some magnitude => finite (value < 0) magnitude
  | none => infinite (value < 0)

end Binary64

end Dotpath
