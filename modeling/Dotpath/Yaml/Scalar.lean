import Dotpath.Decimal.Literal
import Dotpath.Word
import Dotpath.Yaml

/-!
# What scalar texts mean

A plain scalar is null, a boolean, an integer, a float or else a string. Integers outside 64 bits
are refused as long as they fit 128 bits, and beyond those they are read as floats.
-/

namespace Dotpath.Yaml.Scalar

/-- The four spellings of null that have a letter or sign. -/
def isNull (cs : List Char) : Bool :=
  ["~", "null", "Null", "NULL"].any (·.toList == cs)

def bool? (cs : List Char) : Option Bool :=
  if ["true", "True", "TRUE"].any (·.toList == cs) then some true
  else if ["false", "False", "FALSE"].any (·.toList == cs) then some false
  else none

def isSigned (cs : List Char) : Bool :=
  cs.head? = some '+' || cs.head? = some '-'

/-- Digits after a needless leading zero, as in an old octal number or a code: a string. -/
def isPadded (cs : List Char) : Bool :=
  match (Literal.sign cs).2 with
  | '0' :: d :: ds => (d :: ds).all Char.isDigit
  | _ => false

/-- The number that digits of base 16, 8 or 2 spell after their mark. -/
def based? : List Char → Option Nat
  | '0' :: 'x' :: ds => Literal.natural? 16 ds
  | '0' :: 'o' :: ds => Literal.natural? 8 ds
  | '0' :: 'b' :: ds => Literal.natural? 2 ds
  | _ => none

/-- An integer of any size: decimal without padding, or in one of the marked bases. -/
def integer? (cs : List Char) : Option Int :=
  let (negative, digits) := Literal.sign cs
  let decimal := if isPadded cs then none else Literal.natural? 10 digits
  ((based? digits).or decimal).map fun n => if negative then -(n : Int) else n

/-- A float: one of the spellings of infinity and NaN, or a literal that is in range. -/
def float? (cs : List Char) : Option Binary64 :=
  let unsigned := if cs.head? = some '+' then cs.drop 1 else cs
  if cs.head? = some '+' && isSigned unsigned then none
  else if [".inf", ".Inf", ".INF"].any (·.toList == unsigned) then some (.infinite false)
  else if ["-.inf", "-.Inf", "-.INF"].any (·.toList == cs) then some (.infinite true)
  else if [".nan", ".NaN", ".NAN"].any (·.toList == cs) then some .nan
  else (Literal.float? unsigned).filter (·.isFinite)

/-- What an integer is read as. -/
inductive Width where
  | inRange
  /-- Outside 64 bits but within 128. -/
  | tooWide
  /-- Outside 128 bits. -/
  | none
deriving DecidableEq, Repr

def width (n : Int) : Width :=
  if Word.holds true 64 n || Word.holds false 64 n then .inRange
  else if Word.holds true 128 n || Word.holds false 128 n then .tooWide
  else .none

/-- What is neither null nor a boolean nor an integer. -/
def floatOrString (cs : List Char) : Yaml :=
  match float? cs with
  | some value => if isPadded cs then string (.ofList cs) else number (.float value)
  | none => string (.ofList cs)

/-- The value of a plain scalar; `none` if it is an integer that is refused. -/
def plain? (cs : List Char) : Option Yaml :=
  if cs.isEmpty || isNull cs then some null
  else match bool? cs with
    | some value => some (bool value)
    | none =>
      match integer? cs with
      | some n =>
        match width n with
        | .inRange => some (number (.int n))
        | .tooWide => none
        | .none => some (floatOrString cs)
      | none => some (floatOrString cs)

/-- The value of a scalar under one of the standard tags, whatever its style; `none` if the text
does not fit the tag. -/
def standard? (tag : String) (cs : List Char) : Option Yaml :=
  match tag with
  | "bool" => (bool? cs).map bool
  | "int" => ((integer? cs).filter fun n => width n = .inRange).map fun n => number (.int n)
  | "float" => (float? cs).map fun value => number (.float value)
  | "null" => if isNull cs then some null else none
  | _ => some (string (.ofList cs))

/-- A string that would be read as something else, or at least looks like a number. -/
def needsQuotes (cs : List Char) : Bool :=
  isPadded cs ||
    match plain? cs with
    | some (string _) => false
    | _ => true

end Dotpath.Yaml.Scalar
