import Dotpath.Config.Edit

/-!
# Actions on configurations

What can be asked of a configuration and the outcome of each request, with its text for people.
-/

namespace Dotpath

/-- A request. -/
inductive Action where
  /-- The flat values, or those at or below a key. -/
  | list (stem : Option String)
  /-- One flat value. -/
  | get (key : String)
  /-- The node at a path. -/
  | query (path : String)
  /-- A value for a path of the file. -/
  | set (path raw : String)
deriving DecidableEq, Repr

inductive Outcome where
  | keyValue (key value : String)
  | listing (entries : List (String × String))
  | node (path : String) (value : Yaml)
  | valueSet (path raw : String)

namespace Outcome

/-- The line for a key and its value. -/
def line (key value : String) : String :=
  key ++ " = " ++ value

/-- The text of an outcome; `none` if it holds a collection without a written form. -/
def text? : Outcome → Option String
  | keyValue key value => some (line key value)
  | listing entries =>
    some (String.intercalate "\n" (entries.map fun entry => line entry.1 entry.2))
  | node path value =>
    if value.kind = .sequence ∨ value.kind = .mapping then
      match value.write with
      | .ok text => some (path ++ ":\n" ++ .ofList (Text.trimEnd text.toList))
      | .error _ => none
    else some (line path value.format)
  | valueSet path raw => some ("Set " ++ line path raw)

end Outcome

namespace Config

/-- The text of a leaf in a listing. -/
def leafText (value : Yaml) : String :=
  if value.kind = .null then "<not set>" else value.format

/-- A key at or below another. -/
def isBelow (stem key : String) : Bool :=
  key = stem || (stem ++ ".").toList.isPrefixOf key.toList

def list (config : Config) (stem : Option String) : List (String × String) :=
  (config.values.entries.filter fun entry => stem.all (isBelow · entry.1)).map fun entry =>
    (entry.1, leafText entry.2)

/-- Carries out a request. Only an edit changes files; the configuration stays as it is. -/
def handle (config : Config) (files : Files) : Action → Files × Except ConfigError Outcome
  | .list stem => (files, .ok (.listing (config.list stem)))
  | .get key =>
    match config.value? key with
    | some value => (files, .ok (.keyValue key (leafText value)))
    | none => (files, .error (.keyNotFound key))
  | .query path =>
    match config.query path with
    | .ok value => (files, .ok (.node path value))
    | .error fault => (files, .error (.access fault))
  | .set path raw =>
    let (files, done) := persist files config.path path raw
    (files, done.map fun () => .valueSet path raw)

end Config

end Dotpath
