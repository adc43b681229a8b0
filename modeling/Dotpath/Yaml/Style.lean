import Dotpath.Text.Utf8
import Dotpath.Yaml.Scalar

/-!
# Styles of scalars

A text is written plain if it can be: on one line, without white space around it or indicators in
it, and if it does not read as anything but a string. A text with line feeds is literal. Single
quotes come next, and double quotes, which can hold everything, last.
-/

namespace Dotpath.Yaml

inductive Style where
  | plain
  | single
  | double
  | literal
deriving DecidableEq, Repr

namespace Style

/-- Line ends of every kind. -/
def isLineEnd (c : Char) : Bool :=
  c = '\n' || c = '\r' || c = '\x85' || c = '\u2028' || c = '\u2029'

/-- Characters that need no escape. -/
def isPrintable (c : Char) : Bool :=
  let n := c.toNat
  n = 0xA || (0x20 ≤ n && n ≤ 0x7E) || (0xA0 ≤ n && n ≤ 0xD7FF)
    || (0xE000 ≤ n && n ≤ 0xFFFD && n ≠ 0xFEFF) || 0x10000 ≤ n

/-- Nothing or a space comes first. -/
def endsWord (cs : List Char) : Bool :=
  cs.head?.all (· = ' ')

/-- An indicator inside a text: a colon that ends a word, or a number sign that starts one. -/
def hasInnerIndicator (previous : Char) : List Char → Bool
  | [] => false
  | c :: cs =>
    (c = ':' && endsWord cs) || (c = '#' && previous = ' ') || hasInnerIndicator c cs

/-- The text starts with an indicator or holds one. -/
def hasIndicator : List Char → Bool
  | [] => false
  | c :: cs =>
    ['#', ',', '[', ']', '\x7b', '\x7d', '&', '*', '!', '|', '>', '\'', '"', '%', '@',
        '\x60'].contains c
      || ((c = '?' || c = ':' || c = '-') && endsWord cs)
      || "---".toList.isPrefixOf (c :: cs) || "...".toList.isPrefixOf (c :: cs)
      || hasInnerIndicator c cs

/-- Two neighbours where the first is as in `p` and the second as in `q`. -/
def hasPair (p q : Char → Bool) (cs : List Char) : Bool :=
  (cs.zip (cs.drop 1)).any fun pair => p pair.1 && q pair.2

def isSpaced (c : Option Char) : Bool :=
  c = some ' '

def allowsPlain (cs : List Char) : Bool :=
  cs.all (fun c => isPrintable c && !isLineEnd c) && !isSpaced cs.head? && !isSpaced cs.getLast?
    && !hasIndicator cs

def allowsSingle (cs : List Char) : Bool :=
  cs.all isPrintable && !hasPair isLineEnd (· = ' ') cs && !hasPair (· = ' ') isLineEnd cs

def allowsLiteral (cs : List Char) : Bool :=
  cs.all isPrintable && !isSpaced cs.getLast? && !hasPair (· = ' ') isLineEnd cs

/-- Quotes of the kind that serves. -/
def quoted (cs : List Char) : Style :=
  if allowsSingle cs then single else double

/-- The style of a string. A key on one line has its value behind it and cannot be literal. -/
def ofString (asKey : Bool) (cs : List Char) : Style :=
  if asKey && cs.any isLineEnd then double
  else if cs.contains '\n' then (if allowsLiteral cs then literal else double)
  else if !Scalar.needsQuotes cs && allowsPlain cs then plain
  else quoted cs

/-- `n` upper-case hexadecimal digits. -/
def hexDigits : Nat → Nat → List Char
  | 0, _ => []
  | digits + 1, n => hexDigits digits (n / 16) ++ [(Nat.digitChar (n % 16)).toUpper]

/-- A character inside double quotes. -/
def escape (c : Char) : List Char :=
  if isPrintable c && !isLineEnd c && c ≠ '"' && c ≠ '\\' then [c]
  else '\\' :: match c with
    | '\x00' => ['0']
    | '\x07' => ['a']
    | '\x08' => ['b']
    | '\t' => ['t']
    | '\n' => ['n']
    | '\x0b' => ['v']
    | '\x0c' => ['f']
    | '\r' => ['r']
    | '\x1b' => ['e']
    | '"' | '\\' => [c]
    | '\x85' => ['N']
    | '\u2028' => ['L']
    | '\u2029' => ['P']
    | _ =>
      if c.toNat ≤ 0xFF then 'x' :: hexDigits 2 c.toNat
      else if c.toNat ≤ 0xFFFF then 'u' :: hexDigits 4 c.toNat
      else 'U' :: hexDigits 8 c.toNat

/-- A text whose lines after the first, or the first too if `fresh`, are indented. Line ends that
follow one another leave empty lines, which are not. -/
def indented (indent : Nat) (each : Char → List Char) (fresh : Bool) : List Char → List Char
  | [] => []
  | c :: cs =>
    if isLineEnd c then c :: indented indent each true cs
    else
      (if fresh then List.replicate indent ' ' else []) ++ each c ++ indented indent each false cs

/-- What single quotes hold, up to the closing one. -/
def singleBody (indent : Nat) (cs : List Char) : List Char :=
  indented indent (fun c => if c = '\'' then ['\'', '\''] else [c]) false cs
    ++ (if cs.getLast?.any isLineEnd then List.replicate indent ' ' else [])

/-- The header of a literal text: its indentation if the text hides it, and whether line ends at the
end of the text are none, one or more. -/
def literalHeader (cs : List Char) : List Char :=
  let hint := if cs.head?.any (fun c => c = ' ' || isLineEnd c) then ['2'] else []
  let chomping := match cs.reverse with
    | [] => ['-']
    | last :: before =>
      if !isLineEnd last then ['-']
      else if before.head?.all isLineEnd then ['+']
      else []
  '|' :: (hint ++ chomping)

/-- The written form of a text whose lines are indented to `indent`, with the line end after it. -/
def write (style : Style) (indent : Nat) (cs : List Char) : List Char :=
  match style with
  | plain => cs ++ ['\n']
  | single => '\'' :: singleBody indent cs ++ ['\'', '\n']
  | double => '"' :: cs.flatMap escape ++ ['"', '\n']
  | literal =>
    literalHeader cs ++ '\n' :: indented indent ([·]) true cs
      ++ (if cs.getLast?.any isLineEnd then [] else ['\n'])

end Style

end Dotpath.Yaml
