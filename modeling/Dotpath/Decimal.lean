import Dotpath.Decimal.Binary64

/-!
# Decimals

A decimal is `digits * 10 ^ exponent`. `toBinary64` rounds one to the nearest floating-point number;
`Magnitude.shortest` goes back with the fewest digits that still round to the same number, and of
those takes the nearest.
-/

namespace Dotpath

/-- The magnitude `digits * 10 ^ exponent`. -/
structure Decimal where
  digits : Nat
  exponent : Int
deriving DecidableEq, Repr

namespace Decimal

/-- How many decimal digits a number has; zero has one. -/
def digitCount (n : Nat) : Nat :=
  (Nat.toDigits 10 n).length

/-- The magnitude nearest to a decimal. Below 10^-330 that is zero, and from 10^310 on there is
none. -/
def nearest? (decimal : Decimal) : Option Magnitude :=
  let order := (digitCount decimal.digits : Int) + decimal.exponent
  if decimal.digits = 0 then some .zero
  else if order < -330 then some .zero
  else if order > 310 then none
  else if decimal.exponent < 0 then
    Magnitude.nearest? decimal.digits (Nat.pow 10 decimal.exponent.natAbs)
  else Magnitude.nearest? (decimal.digits * Nat.pow 10 decimal.exponent.natAbs) 1

/-- The floating-point number nearest to a signed decimal, infinite if it is out of range. -/
def toBinary64 (decimal : Decimal) (negative : Bool) : Binary64 :=
  match decimal.nearest? with
  | some magnitude => .finite negative magnitude
  | none => .infinite negative

/-- Moves trailing zeros of the digits into the exponent. -/
def normalize (fuel : Nat) (decimal : Decimal) : Decimal :=
  match fuel with
  | 0 => decimal
  | fuel + 1 =>
    if decimal.digits % 10 = 0 ∧ decimal.digits ≠ 0 then
      normalize fuel ⟨decimal.digits / 10, decimal.exponent + 1⟩
    else decimal

/-- The exponent of the first digit in scientific form. -/
def order (decimal : Decimal) : Int :=
  decimal.exponent + (digitCount decimal.digits : Int) - 1

end Decimal

namespace Magnitude

/-- The half-way points to the neighbours, in quarters of a unit. -/
def bounds (x : Magnitude) : Nat × Nat :=
  let below := if x.mantissa = fullMantissa ∧ 0 < x.exponent then 1 else 2
  ((4 * x.mantissa - below) * Nat.pow 2 x.exponent, (4 * x.mantissa + 2) * Nat.pow 2 x.exponent)

/-- The grid `10 ^ exponent` in quarters of a unit, as a quotient of two integers. -/
def grid (exponent : Int) : Nat × Nat :=
  if exponent < 0 then (Nat.pow 2 1076, Nat.pow 10 exponent.natAbs)
  else (Nat.pow 10 exponent.natAbs * Nat.pow 2 1076, 1)

/-- `digits * 10 ^ exponent` rounds to `x`: it lies between the half-way points, or on one of them
if the mantissa is even. -/
def reads (x : Magnitude) (exponent : Int) (digits : Nat) : Bool :=
  let (num, den) := grid exponent
  let (low, high) := x.bounds
  let point := digits * num
  if x.mantissa % 2 = 0 then low * den ≤ point && point ≤ high * den
  else low * den < point && point < high * den

/-- The point of the grid `10 ^ exponent` that reads as `x` and is nearest to it, the even one of
two that are equally near. Only the two neighbours of `x` on the grid can be it. -/
def onGrid? (x : Magnitude) (exponent : Int) : Option Nat :=
  let (num, den) := grid exponent
  let exact := 4 * x.units * den
  let down := exact / num
  match x.reads exponent down, x.reads exponent (down + 1) with
  | false, false => none
  | true, false => some down
  | false, true => some (down + 1)
  | true, true =>
    let rest := 2 * (exact % num)
    if rest < num ∨ (rest = num ∧ down % 2 = 0) then some down else some (down + 1)

/-- The exponent of the first digit of a magnitude above zero. -/
def order (x : Magnitude) : Int :=
  let num := x.units
  let den := Nat.pow 2 1074
  let guess : Int := (Decimal.digitCount num : Int) - (Decimal.digitCount den : Int)
  let reached :=
    if guess < 0 then den ≤ num * Nat.pow 10 guess.natAbs
    else den * Nat.pow 10 guess.natAbs ≤ num
  if reached then guess else guess - 1

/-- The first grid that has a point reading as `x`, from the one with a single digit on. -/
def shortestFrom (x : Magnitude) (order : Int) : Nat → Decimal
  | 0 => ⟨0, 0⟩
  | fuel + 1 =>
    let exponent := order - (17 - (fuel + 1) : Int)
    match x.onGrid? exponent with
    | some digits => ⟨digits, exponent⟩
    | none => shortestFrom x order fuel

/-- The decimal with the fewest digits that rounds to `x`, and of those the nearest. -/
def shortest (x : Magnitude) : Decimal :=
  if x.isZero then ⟨0, 0⟩ else (x.shortestFrom x.order 17).normalize 17

end Magnitude

end Dotpath
