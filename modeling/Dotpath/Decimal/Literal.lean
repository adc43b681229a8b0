import Dotpath.Decimal

/-!
# Number literals

The literals that raw texts and plain scalars are tested against: signed decimal integers, and
decimal floats with digits on at least one side of an optional point and an optional exponent.
-/

namespace Dotpath.Literal

/-- The value of a digit in bases up to 16, in either case. -/
def digitValue (c : Char) : Nat :=
  if c.isDigit then c.toNat - '0'.toNat
  else if 'a' ≤ c ∧ c ≤ 'f' then c.toNat - 'a'.toNat + 10
  else if 'A' ≤ c ∧ c ≤ 'F' then c.toNat - 'A'.toNat + 10
  else 16

/-- The number that digits of a base spell; `none` if there is none or another character. -/
def natural? (base : Nat) (cs : List Char) : Option Nat :=
  if cs.isEmpty || !cs.all (fun c => digitValue c < base) then none
  else some (cs.foldl (fun n c => base * n + digitValue c) 0)

/-- Splits a sign off; `true` stands for minus. -/
def sign : List Char → Bool × List Char
  | '-' :: cs => (true, cs)
  | '+' :: cs => (false, cs)
  | cs => (false, cs)

/-- An optional sign and digits. -/
def integer? (base : Nat) (cs : List Char) : Option Int :=
  let (negative, digits) := sign cs
  (natural? base digits).map fun n => if negative then -(n : Int) else n

/-- The exponent after `e` or `E`; a text that ends there has exponent zero. -/
def exponent? : List Char → Option Int
  | [] => some 0
  | c :: cs => if c = 'e' ∨ c = 'E' then integer? 10 cs else none

/-- A decimal magnitude: digits, at most one point, at least one digit, an optional exponent. -/
def decimal? (cs : List Char) : Option Decimal :=
  let whole := cs.takeWhile Char.isDigit
  let rest := cs.dropWhile Char.isDigit
  let (fraction, rest) := match rest with
    | '.' :: rest => (rest.takeWhile Char.isDigit, rest.dropWhile Char.isDigit)
    | _ => ([], rest)
  if whole.isEmpty && fraction.isEmpty then none
  else do
    let digits ← natural? 10 (whole ++ fraction)
    let exponent ← exponent? rest
    pure ⟨digits, exponent - fraction.length⟩

/-- A float literal, rounded to the nearest number; out of range it is infinite. -/
def float? (cs : List Char) : Option Binary64 :=
  let (negative, digits) := sign cs
  (decimal? digits).map (·.toBinary64 negative)

end Dotpath.Literal
