import Dotpath.Dict
import Dotpath.Yaml.Node

/-!
# Flat maps

A nested document as one map from dotted keys to leaves. Only mappings are descended into, through
tags; every other value is a leaf and keeps its tag. Keys are joined without escapes, so two leaves
can meet at one flat key, and then the later leaf wins.
-/

namespace Dotpath

abbrev FlatMap := Dict Yaml

namespace FlatMap

/-- The flat key of a key below `under`, which is empty at the top. -/
def join (under key : String) : String :=
  if under.isEmpty then key else under ++ "." ++ key

mutual

/-- The leaves of the value at a flat key, depth first in document order. -/
def leaves (key : String) : Yaml → List (String × Yaml)
  | .mapping entries => leavesOf key entries
  | .tagged tag value =>
    if value.kind = .mapping then leaves key value else [(key, .tagged tag value)]
  | value => [(key, value)]

/-- The leaves of the entries of a mapping at a flat key. -/
def leavesOf (under : String) : List (Yaml × Yaml) → List (String × Yaml)
  | [] => []
  | (key, value) :: rest => leaves (join under key.keyText) value ++ leavesOf under rest

end

/-- The leaves of a document; one that is not a mapping has none. -/
def documentLeaves (document : Yaml) : List (String × Yaml) :=
  match document.untagged with
  | .mapping entries => leavesOf "" entries
  | _ => []

/-- The flat map of a document. -/
def ofDocument (document : Yaml) : FlatMap :=
  Dict.ofList (documentLeaves document)

/-- A key without a dot whose value is a string with an equals sign: a line of the form `KEY=VALUE`
that was meant for another kind of file. -/
def isSuspect (entry : String × Yaml) : Bool :=
  !entry.1.toList.contains '.' &&
    match entry.2.untagged with
    | .string value => value.toList.contains '='
    | _ => false

/-- The least suspect key. -/
def suspect? (flat : FlatMap) : Option String :=
  (List.find? isSuspect flat.entries).map (·.1)

/-- A key equal to `stem` stays as it is, and one below `stem` loses it; any other is left out. -/
def below? (stem key : String) : Option String :=
  if key = stem then some key
  else if (stem ++ ".").toList.isPrefixOf key.toList then
    some (.ofList (key.toList.drop (stem.length + 1)))
  else none

/-- The entries at or below `stem`, with the stem taken off. -/
def sub (flat : FlatMap) (stem : String) : FlatMap :=
  Dict.ofList (flat.entries.filterMap fun entry =>
    (below? stem entry.1).map fun key => (key, entry.2))

end FlatMap

end Dotpath
