import Dotpath.Decimal

/-!
# The written form of floating-point numbers

A layout says which numbers are written positionally and how exponents and the special values look.
A positional number always has a fraction part.
-/

namespace Dotpath

/-- How floating-point numbers are written. -/
structure FloatLayout where
  /-- Whether a number whose first digit has this exponent is written without one. -/
  positional : Int → Bool
  /-- Written before an exponent that is not negative. -/
  plus : String
  infinity : String
  nan : String

namespace FloatLayout

/-- The digits around the point, for a first digit with exponent `order`. -/
def plain (digits : List Char) (order : Int) : List Char :=
  if order < 0 then
    '0' :: '.' :: (List.replicate (order.natAbs - 1) '0' ++ digits)
  else
    let whole := order.natAbs + 1
    if digits.length ≤ whole then
      digits ++ List.replicate (whole - digits.length) '0' ++ ['.', '0']
    else digits.take whole ++ '.' :: digits.drop whole

/-- One digit, the others after a point, and the exponent. -/
def scientific (layout : FloatLayout) (digits : List Char) (order : Int) : List Char :=
  let point := if digits.length ≤ 1 then digits else digits.take 1 ++ '.' :: digits.drop 1
  let sign := if order < 0 then ['-'] else layout.plus.toList
  point ++ 'e' :: (sign ++ Nat.toDigits 10 order.natAbs)

def magnitude (layout : FloatLayout) (x : Magnitude) : List Char :=
  let decimal := x.shortest
  let digits := Nat.toDigits 10 decimal.digits
  if layout.positional decimal.order then plain digits decimal.order
  else layout.scientific digits decimal.order

/-- The written form of a number; zero keeps its sign. -/
def write (layout : FloatLayout) : Binary64 → String
  | .finite negative x =>
    .ofList (if negative then '-' :: layout.magnitude x else layout.magnitude x)
  | .infinite negative => if negative then "-" ++ layout.infinity else layout.infinity
  | .nan => layout.nan

end FloatLayout

end Dotpath
