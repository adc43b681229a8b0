import Dotpath.Json.Text
import Dotpath.Text.Escape
import Dotpath.Yaml

/-!
# How values are shown

A scalar is shown bare and a container as compact JSON. Where JSON has no text for a mapping key
(null, a container, a tagged key, a float that is not finite) the whole value is shown as an outline
that names the kind of every part.
-/

namespace Dotpath.Yaml

/-- Floats are positional from 10^-5 up to 10^16, and a positive exponent has no sign. -/
def floats : FloatLayout where
  positional order := -5 ≤ order && order < 16
  plus := ""
  infinity := ".inf"
  nan := ".nan"

/-- A key of a JSON object: strings, booleans, integers and finite floats have a text. -/
def jsonKey? : Yaml → Option String
  | bool value => some (Json.Text.quote (toString value))
  | number (.int value) => some (Json.Text.quote (toString value))
  | number (.float value) =>
    if value.isFinite then some (Json.Text.quote (Json.Text.floats.write value)) else none
  | string value => some (Json.Text.quote value)
  | _ => none

mutual

/-- The compact JSON text; a tagged value is an object with the tag as its one name. -/
def json? : Yaml → Option String
  | null => some "null"
  | bool value => some (toString value)
  | number value => some (Json.Text.number value)
  | string value => some (Json.Text.quote value)
  | sequence items => (jsonItems? items).map Json.Text.array
  | mapping entries => (jsonEntries? entries).map Json.Text.object
  | tagged tag value =>
    (json? value).map fun text => Json.Text.object [Json.Text.quote tag.text ++ ":" ++ text]

def jsonItems? : List Yaml → Option (List String)
  | [] => some []
  | item :: rest =>
    match json? item, jsonItems? rest with
    | some text, some texts => some (text :: texts)
    | _, _ => none

def jsonEntries? : List (Yaml × Yaml) → Option (List String)
  | [] => some []
  | (key, value) :: rest =>
    match jsonKey? key, json? value, jsonEntries? rest with
    | some name, some text, some texts => some ((name ++ ":" ++ text) :: texts)
    | _, _, _ => none

end

/-- A scalar in an outline with the name of its kind, which keys go without. -/
def label (bare : Bool) (kind text : String) : String :=
  if bare then text else kind ++ "(" ++ text ++ ")"

mutual

/-- The outline of a value: every part with the name of its kind. -/
def outline (bare : Bool) : Yaml → String
  | null => "Null"
  | bool value => label bare "Bool" (toString value)
  | number value => label bare "Number" (value.write floats)
  | string value => label bare "String" (Text.quoteVisible value)
  | sequence items => "Sequence [" ++ String.intercalate ", " (outlineItems items) ++ "]"
  | mapping entries =>
    "Mapping \x7b" ++ String.intercalate ", " (outlineEntries entries) ++ "\x7d"
  | tagged tag value =>
    "TaggedValue \x7b tag: " ++ tag.text ++ ", value: " ++ outline false value ++ " \x7d"

def outlineItems : List Yaml → List String
  | [] => []
  | item :: rest => outline false item :: outlineItems rest

/-- Booleans, numbers and strings stand bare as keys. -/
def outlineEntries : List (Yaml × Yaml) → List String
  | [] => []
  | (key, value) :: rest =>
    (outline true key ++ ": " ++ outline false value) :: outlineEntries rest

end

/-- The text of a value for people: nothing for null, a bare scalar, or a container's compact
form. -/
def format : Yaml → String
  | null => ""
  | bool value => toString value
  | number value => value.write floats
  | string value => value
  | tagged _ value => value.format
  | value => value.json?.getD (value.outline false)

/-- The name that a mapping key goes by in paths and flat keys. -/
def keyText : Yaml → String
  | null => "null"
  | key => key.format

end Dotpath.Yaml
