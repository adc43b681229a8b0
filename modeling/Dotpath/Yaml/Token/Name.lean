import Dotpath.Text.Utf8
import Dotpath.Yaml.Cursor
import Dotpath.Yaml.Token
import Dotpath.Yaml.Token.Quoted

/-!
# Anchors, tags and directives

The tokens that hold names. Tags are written with a handle that directives can define, or verbatim
in angle brackets; percent signs in them escape the bytes of a character.
-/

namespace Dotpath.Yaml.Token

/-- What may follow the name of an anchor or alias. -/
def endsName (cs : List Char) : Bool :=
  endsWord cs || cs.head?.any (['?', ':', ',', ']', '\x7d', '%', '@', '\x60'].contains ·)

/-- Reads the name after an ampersand or asterisk. -/
def name? (here : Cursor) : Option (List Char × Cursor) :=
  let name := here.next.run isWordChar
  let after := here.next.skip isWordChar
  if name.isEmpty || !endsName after.rest then none else some (name, after)

/-- The characters of a tag; the indicators of flow collections only where they cannot end it. -/
def isTagChar (verbatim : Bool) (c : Char) : Bool :=
  isWordChar c ||
    [';', '/', '?', ':', '@', '&', '=', '+', '$', '.', '%', '!', '~', '*', '\'', '(',
        ')'].contains c
    || (verbatim && (c = ',' || c = '[' || c = ']'))

/-- The byte that a percent sign and two digits spell. -/
def escapedByte? : List Char → Option Nat
  | '%' :: a :: b :: _ => hex? [a, b]
  | _ => none

/-- The bytes of `n` escapes that continue a character. -/
def moreBytes? : Nat → List Char → Option (List UInt8)
  | 0, _ => some []
  | n + 1, cs => do
    let byte ← escapedByte? cs
    if byte / 64 ≠ 2 then none
    pure (.ofNat byte :: (← moreBytes? n (cs.drop 3)))

/-- The bytes of the character whose first escape comes first; its first byte says how many
follow. -/
def escapedBytes? (cs : List Char) : Option (List UInt8) := do
  let first ← escapedByte? cs
  let more ← if first < 0x80 then some 0
    else if first / 32 = 6 then some 1
    else if first / 16 = 14 then some 2
    else if first / 8 = 30 then some 3
    else none
  pure (.ofNat first :: (← moreBytes? more (cs.drop 3)))

/-- Reads the characters of a tag, escapes included, after the bytes `done`, last byte first. -/
def tagTextFrom (verbatim : Bool) :
    Nat → Cursor → List UInt8 → Option (List UInt8 × Cursor)
  | 0, _, _ => none
  | fuel + 1, here, done =>
    match here.rest with
    | [] => some (done.reverse, here)
    | c :: _ =>
      if c = '%' then do
        let bytes ← escapedBytes? here.rest
        tagTextFrom verbatim fuel (here.drop (3 * bytes.length)) (bytes.reverse ++ done)
      else if isTagChar verbatim c then tagTextFrom verbatim fuel here.next (encodeChar c ++ done)
      else some (done.reverse, here)
where
  encodeChar (c : Char) : List UInt8 := [.ofNat c.toNat]

/-- Reads a stretch of tag text. A null byte ends what counts of it. -/
def tagText? (verbatim : Bool) (here : Cursor) : Option (List UInt8 × Cursor) :=
  (tagTextFrom verbatim (here.rest.length + 1) here []).map fun (bytes, after) =>
    (bytes.takeWhile (· ≠ 0), after)

/-- The bytes of ASCII characters. -/
def asciiBytes (cs : List Char) : List UInt8 :=
  cs.map fun c => .ofNat c.toNat

/-- Reads an exclamation mark, word characters, and a second mark if there is one. -/
def handleName (here : Cursor) : List Char × Cursor :=
  let word := here.next.run isWordChar
  let after := here.next.skip isWordChar
  if after.rest.head? = some '!' then ('!' :: word ++ ['!'], after.next) else ('!' :: word, after)

/-- Reads a tag in angle brackets, which stands for itself. -/
def verbatim? (here : Cursor) : Option (Token × Cursor) := do
  let text := here.drop 2
  let (suffix, after) ← tagText? true text
  if after.index = text.index || after.rest.head? ≠ some '>' then none
  pure (.tag [] suffix, after.next)

/-- Reads a tag with a handle. Without a second mark the handle is a single mark and its word starts
the suffix; the mark alone is a tag of its own. -/
def shorthand? (here : Cursor) : Option (Token × Cursor) := do
  let (name, text) := handleName here
  let (suffix, after) ← tagText? false text
  if name.length > 1 && name.getLast? = some '!' then
    if after.index = text.index then none
    pure (.tag name suffix, after)
  else
    let suffix := asciiBytes (name.drop 1) ++ suffix
    if suffix.isEmpty then pure (.tag [] (asciiBytes ['!']), after)
    else pure (.tag ['!'] suffix, after)

/-- Reads the tag that comes first. White space must follow, or a comma in a flow collection. -/
def tag? (flow : Bool) (here : Cursor) : Option (Token × Cursor) := do
  let (token, after) ←
    if here.next.rest.head? = some '<' then verbatim? here else shorthand? here
  if endsWord after.rest || (flow && after.rest.head? = some ',') then pure (token, after) else none

/-- Reads a number of up to nine digits. -/
def smallNumber? (here : Cursor) : Option (Nat × Cursor) :=
  let digits := here.run Char.isDigit
  if digits.isEmpty || digits.length > 9 then none
  else some (digits.foldl (fun n c => 10 * n + (c.toNat - '0'.toNat)) 0, here.skip Char.isDigit)

/-- Reads the version that a document declares. -/
def version? (here : Cursor) : Option (Token × Cursor) := do
  let (major, here) ← smallNumber? (here.skip isGap)
  if here.rest.head? ≠ some '.' then none
  let (minor, here) ← smallNumber? here.next
  pure (.version major minor, here)

/-- Reads the definition of a handle. -/
def definition? (here : Cursor) : Option (Token × Cursor) := do
  let here := here.skip isGap
  if here.rest.head? ≠ some '!' then none
  let (name, here) := handleName here
  if name ≠ ['!'] && !(name.length > 1 && name.getLast? = some '!') then none
  if !here.rest.head?.any isGap then none
  let text := here.skip isGap
  let (stem, after) ← tagText? true text
  if after.index = text.index || !endsWord after.rest then none
  pure (.handle name stem, after)

/-- Reads the directive whose percent sign comes first, up to the next line. -/
def directive? (here : Cursor) : Option (Token × Cursor) := do
  let name := here.next.run isWordChar
  let here := here.next.skip isWordChar
  if name.isEmpty || !endsWord here.rest then none
  let (token, here) ←
    if name = "YAML".toList then version? here
    else if name = "TAG".toList then definition? here
    else none
  let here := here.skip isGap
  let here := if here.rest.head? = some '#' then here.skipLine else here
  if here.rest.head?.all isBreak then pure (token, here.next) else none

end Dotpath.Yaml.Token
