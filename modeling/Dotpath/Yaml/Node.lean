import Dotpath.Node
import Dotpath.Yaml.Text

/-!
# Paths into YAML trees

A name addresses the entry whose key is that very string, else the first entry whose key is not a
string and is shown as the name. Tags are looked through on the way.
-/

namespace Dotpath.Yaml

def kind : Yaml → Kind
  | null => .null
  | bool _ => .boolean
  | number _ => .number
  | string _ => .string
  | sequence _ => .sequence
  | mapping _ => .mapping
  | tagged _ value => value.kind

/-- The entry's key is not a string and is shown as `name`. -/
def rendersTo (name : String) (entry : Yaml × Yaml) : Bool :=
  !entry.1.isString && entry.1.keyText == name

/-- The entry's key is the string `name`. -/
def isNamed (name : String) (entry : Yaml × Yaml) : Bool :=
  entry.1.isText name

/-- What picks the entry that `name` addresses: its first match is that entry. -/
def addresses (entries : List (Yaml × Yaml)) (name : String) (entry : Yaml × Yaml) : Bool :=
  if entries.any (isNamed name) then isNamed name entry else rendersTo name entry

/-- Gives the first entry that passes the test a new value. -/
def replaceFirst (test : Yaml × Yaml → Bool) (value : Yaml) :
    List (Yaml × Yaml) → Option (List (Yaml × Yaml))
  | [] => none
  | entry :: rest =>
    if test entry then some ((entry.1, value) :: rest)
    else (replaceFirst test value rest).map (entry :: ·)

def field? : Yaml → String → Option Yaml
  | mapping entries, name => (entries.find? (addresses entries name)).map (·.2)
  | tagged _ value, name => value.field? name
  | _, _ => none

def replaceField? : Yaml → String → Yaml → Option Yaml
  | mapping entries, name, value =>
    (replaceFirst (addresses entries name) value entries).map mapping
  | tagged tag inner, name, value => (inner.replaceField? name value).map (tagged tag)
  | _, _, _ => none

def insertField : Yaml → String → Yaml → Yaml
  | mapping entries, name, value => mapping (insertEntry (string name) value entries)
  | tagged tag inner, name, value => tagged tag (inner.insertField name value)
  | node, _, _ => node

def items? : Yaml → Option (List Yaml)
  | sequence items => some items
  | tagged _ value => value.items?
  | _ => none

instance : Node Yaml where
  null := null
  emptyMapping := mapping []
  ofItems := sequence
  kind := kind
  untagged := untagged
  field? := field?
  replaceField? := replaceField?
  insertField := insertField
  items? := items?

end Dotpath.Yaml
