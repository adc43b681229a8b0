/-!
# Tokens of a YAML text

Tokens name what a text is made of, with the ends of block collections made explicit. Tags keep the
bytes that their escapes spell.
-/

namespace Dotpath.Yaml

inductive Token where
  | version (major minor : Nat)
  /-- A handle and the stem that it stands for in tags. -/
  | handle (name : List Char) (stem : List UInt8)
  | documentStart
  | documentEnd
  | blockSequence
  | blockMapping
  | blockEnd
  | flowSequence
  | flowSequenceEnd
  | flowMapping
  | flowMappingEnd
  /-- The hyphen before an item. -/
  | item
  | comma
  | key
  | value
  | reference (name : List Char)
  | anchor (name : List Char)
  /-- A tag with its handle, which is empty where the suffix is the whole tag. -/
  | tag (handle : List Char) (suffix : List UInt8)
  | scalar (plain : Bool) (text : List Char)
deriving DecidableEq, Repr

end Dotpath.Yaml
