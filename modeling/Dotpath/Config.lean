import Dotpath.Config.Error
import Dotpath.Flat
import Dotpath.Typed
import Dotpath.Yaml.Reading

/-!
# Configurations

A document with the flat map of its leaves. A configuration is loaded from a YAML text whose
document is a mapping, or from nothing at all.
-/

namespace Dotpath

structure Config where
  /-- Where it comes from, and is written to. -/
  path : String
  document : Yaml
  values : FlatMap
deriving DecidableEq

namespace Config

/-- The configuration of a file that holds nothing. -/
def empty (path : String) : Config :=
  ⟨path, .null, {}⟩

/-- The configuration of a document. -/
def ofDocument (path : String) (document : Yaml) : Except ConfigError Config :=
  match document.kind with
  | .null => .ok (empty path)
  | .mapping =>
    let values := FlatMap.ofDocument document
    match values.suspect? with
    | some key => .error (.suspectEntry key)
    | none => .ok ⟨path, document, values⟩
  | found => .error (.notAMapping path found)

/-- The configuration of a text. -/
def ofText (path text : String) : Except ConfigError Config :=
  match Yaml.parse? text with
  | some document => ofDocument path document
  | none => .error (.parse path)

/-- The text of a file; a missing file has none. -/
def readOptional (files : Files) (path : String) : Except ConfigError (Option String) :=
  match files.readText path with
  | .ok text => .ok (some text)
  | .error .notFound => .ok none
  | .error fault => .error (.read path fault)

/-- The configuration in a file, empty if the file is missing. -/
def load (files : Files) (path : String) : Except ConfigError Config := do
  match ← readOptional files path with
  | some text => ofText path text
  | none => pure (empty path)

def value? (config : Config) (key : String) : Option Yaml :=
  config.values.find? key

/-- The text of a flat value, empty if there is none. -/
def get (config : Config) (key : String) : String :=
  ((config.value? key).map (·.format)).getD ""

/-- The flat entries at or below a key. -/
def getAll (config : Config) (stem : String) : FlatMap :=
  config.values.sub stem

def isEmpty (config : Config) : Bool :=
  config.values.entries.isEmpty

/-- The node at a path of the document. -/
def query (config : Config) (path : String) : Except AccessError Yaml :=
  getAt config.document path

/-- The texts of the flat values below a key that are not null. -/
def texts (config : Config) (stem : String) : Dict String :=
  Dict.ofList ((config.getAll stem).entries.filterMap fun entry =>
    if entry.2.kind = .null then none else some (entry.1, entry.2.format))

def env (config : Config) : Dict String :=
  config.texts "env"

def secrets (config : Config) : Dict String :=
  config.texts "secrets"

def inputs (config : Config) : Dict String :=
  config.texts "inputs"

end Config

end Dotpath
