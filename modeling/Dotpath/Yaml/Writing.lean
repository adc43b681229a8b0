import Dotpath.Yaml.Style
import Dotpath.Yaml.Text

/-!
# Writing YAML

The block form of a value: two columns of indentation, items of a sequence in a mapping at the
column of its keys, and short keys on one line with their values.
-/

namespace Dotpath.Tag

/-- The tag with one mark in front. As in reading, a null character ends what counts of it. -/
def marked (tag : Tag) : List Char :=
  match tag.name.toList.takeWhile (· ≠ '\x00') with
  | '!' :: cs => '!' :: cs
  | cs => '!' :: cs

/-- The characters of a tag that stand for themselves. -/
def isPlainChar (c : Char) : Bool :=
  c.isAlphanum || "_-;/?:@&=+$,.~*'()[]".toList.contains c

def escapeChar (c : Char) : List Char :=
  if isPlainChar c then [c]
  else (Text.encodeUtf8 c).flatMap fun byte => '%' :: Yaml.Style.hexDigits 2 byte.toNat

/-- The written form of a tag. The mark alone has to be written verbatim. -/
def write (tag : Tag) : List Char :=
  match tag.marked with
  | ['!'] => "!<%21>".toList
  | cs => '!' :: (cs.drop 1).flatMap escapeChar

end Dotpath.Tag

namespace Dotpath.Yaml

/-- Where a node is written. -/
inductive Place where
  | root
  /-- Behind the hyphen of an item. -/
  | item
  /-- Before the colon on one line. -/
  | shortKey
  /-- Behind the question mark of a key. -/
  | longKey
  /-- Behind a short key. -/
  | shortValue
  /-- Behind the colon after a long key. -/
  | longValue
deriving DecidableEq, Repr

namespace Place

/-- What parts a text from the indicator before it. -/
def gap : Place → List Char
  | root => []
  | shortKey => []
  | _ => [' ']

/-- A collection can start on the line of the indicator before it. -/
def joins : Place → Bool
  | item => true
  | longKey => true
  | longValue => true
  | _ => false

end Place

/-- The column of the items of a sequence in a block at column `indent`. -/
def itemColumn (indent : Nat) (place : Place) (tagged : Bool) : Nat :=
  match place with
  | .root => 0
  | .shortValue => indent
  | .item => indent + 2
  | _ => if tagged then indent else indent + 2

/-- The column of the keys of a mapping in a block at column `indent`. -/
def keyColumn (indent : Nat) (place : Place) : Nat :=
  if place = .root then 0 else indent + 2

def pad (column : Nat) : List Char :=
  List.replicate column ' '

/-- What leads from the indicator before a block, and its tag, to its first line. -/
def opening (place : Place) (tag : List Char) (column : Nat) : List Char :=
  if !tag.isEmpty then place.gap ++ tag ++ '\n' :: pad column
  else if place.joins then [' ']
  else if place = .root then []
  else '\n' :: pad column

/-- What leads to a text: its tag, if any. -/
def lead (place : Place) (tag : List Char) : List Char :=
  if tag.isEmpty then place.gap else place.gap ++ tag ++ [' ']

/-- Ends a line, except that the value stands behind a short key. -/
def endLine (place : Place) (line : List Char) : List Char :=
  if place = .shortKey then line else line ++ ['\n']

/-- A key and its tag are written on one line up to this many bytes. -/
def maxKeyLength : Nat := 128

/-- The text of a scalar and how it is written as a key or elsewhere. -/
def scalarText? (asKey : Bool) : Yaml → Option (List Char × Style)
  | null => some ("null".toList, .plain)
  | bool value => some ((toString value).toList, .plain)
  | number value => some ((value.write floats).toList, .plain)
  | string value => some (value.toList, .ofString asKey value.toList)
  | _ => none

/-- The key is written on one line with its value: a short text or an empty collection. -/
def isShortKey (tagLength : Nat) : Yaml → Bool
  | tagged tag value => isShortKey (String.ofList tag.marked).utf8ByteSize value
  | sequence items => items.isEmpty && tagLength ≤ maxKeyLength
  | mapping entries => entries.isEmpty && tagLength ≤ maxKeyLength
  | value =>
    match scalarText? true value with
    | some (cs, _) =>
      !cs.any Style.isLineEnd && tagLength + (String.ofList cs).utf8ByteSize ≤ maxKeyLength
    | none => false

mutual

/-- The text of a node from the indicator before it on, in a block at column `indent`. -/
def writeNode (indent : Nat) (place : Place) (tag : List Char) : Yaml → List Char
  | tagged tag value => writeNode indent place tag.write value
  | sequence [] => endLine place (lead place tag ++ ['[', ']'])
  | sequence items =>
    let column := itemColumn indent place (!tag.isEmpty)
    writeItems column (opening place tag column) items
  | mapping [] => endLine place (lead place tag ++ ['\x7b', '\x7d'])
  | mapping entries =>
    let column := keyColumn indent place
    writeEntries column (opening place tag column) entries
  | value =>
    match scalarText? (place = .shortKey) value with
    | some (cs, style) =>
      let text := style.write (indent + 2) cs
      lead place tag ++ (if place = .shortKey then text.dropLast else text)
    | none => []

/-- Items at a column, the first of them behind `first`. -/
def writeItems (column : Nat) (first : List Char) : List Yaml → List Char
  | [] => []
  | item :: rest =>
    first ++ '-' :: writeNode column .item [] item ++ writeItems column (pad column) rest

/-- Entries at a column, the first of them behind `first`. -/
def writeEntries (column : Nat) (first : List Char) : List (Yaml × Yaml) → List Char
  | [] => []
  | (key, value) :: rest =>
    first
      ++ (if isShortKey 0 key then
          writeNode column .shortKey [] key ++ ':' :: writeNode column .shortValue [] value
        else
          '?' :: writeNode column .longKey [] key ++ pad column
            ++ ':' :: writeNode column .longValue [] value)
      ++ writeEntries column (pad column) rest

end

/-- The text of a document. -/
def render (document : Yaml) : String :=
  .ofList (writeNode 0 .root [] document)

end Dotpath.Yaml
