import Dotpath.Access
import Dotpath.Json
import Dotpath.Json.Text
import Dotpath.Word
import Dotpath.Yaml.Node

/-!
# Typed reads

A value can be asked for at a type. The reading is strict: a string never turns into a number or a
boolean, and an integer must fit the width. Both kinds of trees are read by one function, which sees
a node as one `Layer`; they differ in how they name null and floats in messages, and a YAML null
passes for an empty sequence or mapping. Tags are looked through, but a null that still has one
counts neither as the unit nor as an absent value.
-/

namespace Dotpath

/-- A type that a value can be read at. -/
inductive ReadType where
  | string
  | bool
  | char
  | int (signed : Bool) (bits : Nat)
  | float
  | unit
  | optional (type : ReadType)
  | list (type : ReadType)
  | map (type : ReadType)
deriving DecidableEq, Repr

namespace ReadType

def intName (signed : Bool) (bits : Nat) : String :=
  (if signed then "i" else "u") ++ toString bits

/-- The full name of the type. -/
def name : ReadType → String
  | string => "alloc::string::String"
  | bool => "bool"
  | char => "char"
  | int signed bits => intName signed bits
  | float => "f64"
  | unit => "()"
  | optional type => "core::option::Option<" ++ type.name ++ ">"
  | list type => "alloc::vec::Vec<" ++ type.name ++ ">"
  | map type =>
    "alloc::collections::btree::map::BTreeMap<alloc::string::String, " ++ type.name ++ ">"

/-- What messages say was expected. -/
def expected : ReadType → String
  | string => "a string"
  | bool => "a boolean"
  | char => "a character"
  | int signed bits => intName signed bits
  | float => "f64"
  | unit => "unit"
  | optional type => type.expected
  | list _ => "a sequence"
  | map _ => "a map"

end ReadType

/-- A value read at a type. -/
inductive Datum where
  | string (value : String)
  | bool (value : Bool)
  | char (value : Char)
  | int (value : Int)
  | float (value : Binary64)
  | unit
  | absent
  | present (value : Datum)
  | list (items : List Datum)
  | map (entries : List (String × Datum))

/-- One level of a tree, below any tags. -/
inductive Layer (α : Type) where
  | null
  | bool (value : Bool)
  | number (value : Number)
  | string (value : String)
  | items (items : List α)
  | entries (entries : List (α × α))

/-- How the nodes of a kind of trees are read and named. -/
class Readable (α : Type) where
  layer : α → Layer α
  isTagged : α → Bool
  nullText : String
  nullIsEmpty : Bool
  floats : FloatLayout

instance : Readable Json where
  layer
    | .null => .null
    | .bool value => .bool value
    | .number value => .number value
    | .string value => .string value
    | .array items => .items items
    | .object fields => .entries (fields.map fun field => (.string field.1, field.2))
  isTagged _ := false
  nullText := "null"
  nullIsEmpty := false
  floats := Json.Text.floats

/-- Floats in messages about YAML values are always positional. -/
def Yaml.plainFloats : FloatLayout where
  positional _ := true
  plus := ""
  infinity := "inf"
  nan := "NaN"

/-- The outermost level below the tags. -/
def Yaml.layer : Yaml → Layer Yaml
  | null => .null
  | bool value => .bool value
  | number value => .number value
  | string value => .string value
  | sequence items => .items items
  | mapping entries => .entries entries
  | tagged _ value => value.layer

def Yaml.isTagged : Yaml → Bool
  | tagged _ _ => true
  | _ => false

instance : Readable Yaml where
  layer := Yaml.layer
  isTagged := Yaml.isTagged
  nullText := "unit value"
  nullIsEmpty := true
  floats := Yaml.plainFloats

/-- The node is null itself, with no tag before it. -/
def Readable.isNull {α : Type} [Readable α] (node : α) : Bool :=
  match layer node with
  | .null => !isTagged node
  | _ => false

namespace ReadType

variable {α : Type} [Readable α]

/-- What messages say was found. -/
def found : Layer α → String
  | .null => Readable.nullText α
  | .bool value => "boolean `" ++ toString value ++ "`"
  | .number (.int value) => "integer `" ++ toString value ++ "`"
  | .number (.float value) =>
    "floating point `" ++ (Readable.floats α).write value ++ "`"
  | .string value => "string " ++ Text.quoteVisible value
  | .items _ => "sequence"
  | .entries _ => "map"

/-- The node has another kind than the type asks for. -/
def invalidType (type : ReadType) (layer : Layer α) : String :=
  "invalid type: " ++ found layer ++ ", expected " ++ type.expected

/-- The node has the right kind and a value outside the type. -/
def invalidValue (type : ReadType) (layer : Layer α) : String :=
  "invalid value: " ++ found layer ++ ", expected " ++ type.expected

/-- Mapping keys are read as strings. -/
def decodeKey (key : α) : Except String String :=
  match Readable.layer key with
  | .string value => .ok value
  | layer => .error (invalidType string layer)

/-- Reads a node at a type; the error says what was found and what was expected. -/
def decode (type : ReadType) (node : α) : Except String Datum :=
  let layer := Readable.layer node
  match type with
  | .string =>
    match layer with
    | .string value => .ok (.string value)
    | _ => .error (invalidType .string layer)
  | .bool =>
    match layer with
    | .bool value => .ok (.bool value)
    | _ => .error (invalidType .bool layer)
  | .char =>
    match layer with
    | .string value =>
      match value.toList with
      | [c] => .ok (.char c)
      | _ => .error (invalidValue .char layer)
    | _ => .error (invalidType .char layer)
  | .int signed bits =>
    match layer with
    | .number (.int value) =>
      if Word.holds signed bits value then .ok (.int value)
      else .error (invalidValue (.int signed bits) layer)
    | _ => .error (invalidType (.int signed bits) layer)
  | .float =>
    match layer with
    | .number (.int value) => .ok (.float (.ofInt value))
    | .number (.float value) => .ok (.float value)
    | _ => .error (invalidType .float layer)
  | .unit =>
    if Readable.isNull node then .ok .unit
    else if Readable.isTagged node then .error ("invalid type: enum, expected " ++ unit.expected)
    else .error (invalidType .unit layer)
  | .optional inner =>
    if Readable.isNull node then .ok .absent else (decode inner node).map .present
  | .list inner =>
    match layer with
    | .items items => (items.mapM (decode inner)).map .list
    | .null =>
      if Readable.nullIsEmpty α then .ok (.list []) else .error (invalidType (.list inner) layer)
    | _ => .error (invalidType (.list inner) layer)
  | .map inner =>
    match layer with
    | .entries entries => do
      let read ← entries.mapM fun entry => do
        let key ← decodeKey entry.1
        let value ← decode inner entry.2
        pure (key, value)
      pure (.map (Dict.ofList read).entries)
    | .null =>
      if Readable.nullIsEmpty α then .ok (.map []) else .error (invalidType (.map inner) layer)
    | _ => .error (invalidType (.map inner) layer)

end ReadType

/-- Reads the value at a path at a type, without the tags before it. A value of another type is
reported with the path's text. -/
def Path.getAs {α : Type} [Node α] [Readable α] (path : Path) (type : ReadType) (root : α) :
    Except AccessError Datum := do
  let node ← path.get root
  match type.decode (Node.untagged node) with
  | .ok datum => .ok datum
  | .error reason => .error (.typeMismatch path.render type.name reason)

end Dotpath
