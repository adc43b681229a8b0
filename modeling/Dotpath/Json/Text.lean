import Dotpath.Number

/-!
# The compact text of JSON

Strings in quotes with the short escapes where there are some, floats with a signed exponent, and no
space between tokens.
-/

namespace Dotpath.Json.Text

/-- Floats are positional from 10^-5 up to 10^16, and a positive exponent has its sign. -/
def floats : FloatLayout where
  positional order := -5 ≤ order && order < 16
  plus := "+"
  infinity := "inf"
  nan := "NaN"

/-- A lower-case hexadecimal digit. -/
def hexDigit (n : Nat) : Char :=
  if n < 10 then .ofNat ('0'.toNat + n) else .ofNat ('a'.toNat + (n - 10))

/-- A character inside a quoted string. -/
def escape (c : Char) : List Char :=
  if c = '"' then ['\\', '"']
  else if c = '\\' then ['\\', '\\']
  else if c = '\n' then ['\\', 'n']
  else if c = '\r' then ['\\', 'r']
  else if c = '\t' then ['\\', 't']
  else if c = '\x08' then ['\\', 'b']
  else if c = '\x0c' then ['\\', 'f']
  else if c.toNat < 32 then
    ['\\', 'u', '0', '0', hexDigit (c.toNat / 16), hexDigit (c.toNat % 16)]
  else [c]

def quote (text : String) : String :=
  .ofList ('"' :: (text.toList.flatMap escape ++ ['"']))

/-- The text of a number; what JSON has no number for is `null`. -/
def number : Number → String
  | .int value => toString value
  | .float value => if value.isFinite then floats.write value else "null"

/-- Pieces with commas between them. -/
def commaSeparated (pieces : List String) : String :=
  String.intercalate "," pieces

def array (pieces : List String) : String :=
  "[" ++ commaSeparated pieces ++ "]"

def object (pieces : List String) : String :=
  "\x7b" ++ commaSeparated pieces ++ "\x7d"

end Dotpath.Json.Text
