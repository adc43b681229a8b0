import Dotpath.Path
import Dotpath.Text.Split
import Dotpath.Word

/-!
# The grammar of paths

A path text is a sequence of parts between dots; a part is an optional name without `[`, then any
number of bracketed positions. Parts are read from left to right and the first fault is reported.
-/

namespace Dotpath

/-- Why a text is not a path. -/
inductive GrammarError where
  | emptyPath
  | emptySegment (path : String)
  | emptyIndex (part : String)
  | invalidIndex (part index : String)
  | indexTooLarge (part : String) (index : Nat)
  | malformedPart (part : String)
deriving DecidableEq, Repr

namespace GrammarError

def message : GrammarError → String
  | emptyPath => "path cannot be empty"
  | emptySegment path => "empty segment in path '" ++ path ++ "'"
  | emptyIndex part => "empty array index in '" ++ part ++ "'"
  | invalidIndex part index => "invalid array index '" ++ index ++ "' in '" ++ part ++ "'"
  | indexTooLarge part index =>
    "array index " ++ toString index ++ " in '" ++ part ++ "' exceeds the maximum of "
      ++ toString Path.maxIndex
  | malformedPart part => "malformed array notation in '" ++ part ++ "'"

end GrammarError

namespace Path

/-- The number that decimal digits spell. -/
def digitsValue (digits : List Char) : Nat :=
  digits.foldl (fun n c => 10 * n + (c.toNat - '0'.toNat)) 0

/-- The contents of the brackets that make up a text: `none` unless the text is nothing but closed
brackets. `body` holds what the open bracket has so far, last character first; contents may hold
`[`. -/
def brackets (body : Option (List Char)) : List Char → Option (List (List Char))
  | [] => if body.isNone then some [] else none
  | c :: cs =>
    match body with
    | none => if c = '[' then brackets (some []) cs else none
    | some inner =>
      if c = ']' then (brackets none cs).map (inner.reverse :: ·)
      else brackets (some (c :: inner)) cs

/-- Positions are digits, fit a 64-bit word and stay within the limit. -/
def parseIndex (part contents : List Char) : Except GrammarError Accessor :=
  if contents.isEmpty then .error (.emptyIndex (.ofList part))
  else if !contents.all Char.isDigit || !Word.holds false 64 (digitsValue contents) then
    .error (.invalidIndex (.ofList part) (.ofList contents))
  else if digitsValue contents > maxIndex then
    .error (.indexTooLarge (.ofList part) (digitsValue contents))
  else .ok (.index (digitsValue contents))

/-- The steps of one part: its name if it has one, then its positions. -/
def parsePart (part : List Char) : Except GrammarError (List Accessor) :=
  let name := part.takeWhile (· ≠ '[')
  match brackets none (part.dropWhile (· ≠ '[')) with
  | none => .error (.malformedPart (.ofList part))
  | some contents => do
    let indices ← contents.mapM (parseIndex part)
    pure (if name.isEmpty then indices else .field (.ofList name) :: indices)

/-- The steps of the parts in order, up to the first faulty one. -/
def parseParts (whole : String) : List (List Char) → Except GrammarError Path
  | [] => .ok []
  | part :: parts => do
    if part.isEmpty then throw (.emptySegment whole)
    let steps ← parsePart part
    let rest ← parseParts whole parts
    pure (steps ++ rest)

/-- Reads a path. -/
def parse (text : String) : Except GrammarError Path :=
  if text.isEmpty then .error .emptyPath
  else parseParts text (Text.splitOn '.' text.toList)

end Path

end Dotpath
