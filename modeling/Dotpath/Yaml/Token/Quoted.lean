import Dotpath.Text.Utf8
import Dotpath.Yaml.Cursor

/-!
# Quoted scalars

In single quotes only the quote itself is doubled. In double quotes a backslash starts an escape,
also of a line end. In both, a line break among spaces is folded.
-/

namespace Dotpath.Yaml.Token

/-- What a first line break and those after it come to: one line feed alone is a space, and before
others it is dropped. -/
def foldBreaks (first : Char) (more : List Char) : List Char :=
  if first = '\n' then (if more.isEmpty then [' '] else more) else first :: more

/-- What white space between two words comes to. Without a line break it stays as it is. -/
def foldSpace (space : List Char) : List Char :=
  match space.dropWhile isGap with
  | [] => space
  | first :: more => foldBreaks first (more.filter isBreak)

/-- The character of a code point, unless it is a surrogate or out of range. -/
def scalarValue? (n : Nat) : Option Char :=
  if n < 0xD800 ∨ (0xDFFF < n ∧ n ≤ 0x10FFFF) then some (.ofNat n) else none

/-- The value of a run of hexadecimal digits. -/
def hex? (digits : List Char) : Option Nat :=
  if digits.all fun c => c.isDigit || ('a' ≤ c && c ≤ 'f') || ('A' ≤ c && c ≤ 'F') then
    some (digits.foldl (fun n c => 16 * n + hexDigit c) 0)
  else none
where
  hexDigit (c : Char) : Nat :=
    if c.isDigit then c.toNat - '0'.toNat else c.toLower.toNat - 'a'.toNat + 10

/-- The character that an escape of one letter stands for. -/
def shortEscape? (c : Char) : Option Char :=
  match c with
  | '0' => some '\x00'
  | 'a' => some '\x07'
  | 'b' => some '\x08'
  | 't' | '\t' => some '\t'
  | 'n' => some '\n'
  | 'v' => some '\x0b'
  | 'f' => some '\x0c'
  | 'r' => some '\r'
  | 'e' => some '\x1b'
  | ' ' | '"' | '/' | '\\' => some c
  | 'N' => some '\x85'
  | '_' => some '\xa0'
  | 'L' => some '\u2028'
  | 'P' => some '\u2029'
  | _ => none

/-- The number of digits that an escape by code point has. -/
def escapeLength? (c : Char) : Option Nat :=
  match c with
  | 'x' => some 2
  | 'u' => some 4
  | 'U' => some 8
  | _ => none

/-- The character of the escape whose letter comes first, and the length without the backslash. -/
def escape? : List Char → Option (Char × Nat)
  | [] => none
  | c :: cs =>
    match escapeLength? c with
    | none => (shortEscape? c).map (·, 1)
    | some n => do
      let digits := cs.take n
      if digits.length < n then none
      let c ← scalarValue? (← hex? digits)
      pure (c, n + 1)

/-- Reads on inside single quotes; `done` is the text so far, last character first. -/
def singleFrom : Nat → Cursor → List Char → Option (List Char × Cursor)
  | 0, _, _ => none
  | fuel + 1, here, done =>
    if here.atMarker then none
    else match here.rest with
      | [] => none
      | '\'' :: '\'' :: _ => singleFrom fuel (here.drop 2) ('\'' :: done)
      | '\'' :: _ => some (done.reverse, here.next)
      | c :: _ =>
        if isSpace c then
          singleFrom fuel (here.skip isSpace) ((foldSpace (here.run isSpace)).reverse ++ done)
        else singleFrom fuel here.next (c :: done)

/-- Reads on inside double quotes; `done` is the text so far, last character first. -/
def doubleFrom : Nat → Cursor → List Char → Option (List Char × Cursor)
  | 0, _, _ => none
  | fuel + 1, here, done =>
    if here.atMarker then none
    else match here.rest with
      | [] => none
      | '"' :: _ => some (done.reverse, here.next)
      | '\\' :: c :: cs =>
        if isBreak c then
          let after := here.drop 2
          let breaks := (after.run isSpace).filter isBreak
          doubleFrom fuel (after.skip isSpace) (breaks.reverse ++ done)
        else do
          let (c, length) ← escape? (c :: cs)
          doubleFrom fuel (here.drop (length + 1)) (c :: done)
      | c :: _ =>
        if isSpace c then
          doubleFrom fuel (here.skip isSpace) ((foldSpace (here.run isSpace)).reverse ++ done)
        else doubleFrom fuel here.next (c :: done)

/-- Reads the scalar whose opening quote comes first. -/
def quoted? (single : Bool) (here : Cursor) : Option (List Char × Cursor) :=
  let inside := here.next
  let fuel := inside.rest.length + 1
  if single then singleFrom fuel inside [] else doubleFrom fuel inside []

end Dotpath.Yaml.Token
