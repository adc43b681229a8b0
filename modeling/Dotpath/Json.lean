import Dotpath.Dict
import Dotpath.Node
import Dotpath.Number

/-!
# JSON trees

Objects are kept in the order of their names. There are no tags, so every node is its own untagged
form.
-/

namespace Dotpath

inductive Json where
  | null
  | bool (value : Bool)
  | number (value : Number)
  | string (value : String)
  | array (items : List Json)
  | object (fields : List (String × Json))

namespace Json

instance : Inhabited Json := ⟨null⟩

def kind : Json → Kind
  | null => .null
  | bool _ => .boolean
  | number _ => .number
  | string _ => .string
  | array _ => .sequence
  | object _ => .mapping

def field? : Json → String → Option Json
  | object fields, name => Entries.find? name fields
  | _, _ => none

def insertField : Json → String → Json → Json
  | object fields, name, value => object (Entries.insert name value fields)
  | json, _, _ => json

def replaceField? (json : Json) (name : String) (value : Json) : Option Json :=
  (json.field? name).map fun _ => json.insertField name value

def items? : Json → Option (List Json)
  | array items => some items
  | _ => none

instance : Node Json where
  null := null
  emptyMapping := object []
  ofItems := array
  kind := kind
  untagged := id
  field? := field?
  replaceField? := replaceField?
  insertField := insertField
  items? := items?

end Json

end Dotpath
