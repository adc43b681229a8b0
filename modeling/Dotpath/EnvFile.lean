import Dotpath.Config.Error
import Dotpath.EnvFile.Entry
import Dotpath.EnvFile.Substitution
import Dotpath.Yaml.Node
import Dotpath.Yaml.Reading

/-!
# Env files

Taking the entries of an env file into an environment. Variables that are defined keep their values,
and nothing is taken in if any part of the file has a fault. Names in values stand for variables
first and for earlier entries after that.
-/

namespace Dotpath.EnvFile

/-- What a name stands for: a variable, else an entry of the file so far, else nothing. -/
def resolve (env : Env) (earlier : Dict String) (name : List Char) : List Char :=
  match env.find? (.ofList name) with
  | some value => value.toList
  | none => ((earlier.find? (.ofList name)).getD "").toList

/-- Expands entries in order, each with those before it. A later entry wins over one with its
key. -/
def expandEntries (env : Env) (earlier : Dict String) :
    List (String × List Char) → Except LineFault (Dict String)
  | [] => .ok earlier
  | (key, marked) :: rest => do
    let value ← expand (resolve env earlier) marked
    expandEntries env (earlier.insert key (.ofList value)) rest

/-- The values that a text defines, with a reader for its entries. -/
def definitions (reader : List Char → Reading) (env : Env) (text : List Char) :
    Except LineFault (Dict String) := do
  let found := reader (markAll text)
  let values ← expandEntries env {} found.entries
  match found.fault with
  | some fault => .error fault
  | none => pure values

/-- Takes one definition in if its key is new, and notes what became of the key. -/
def applyEntry (state : Env × EnvReport) (entry : String × String) : Env × EnvReport :=
  let (env, report) := state
  if env.contains entry.1 then (env, { report with skipped := report.skipped ++ [entry.1] })
  else (env.insert entry.1 entry.2, { report with applied := report.applied ++ [entry.1] })

/-- Takes definitions in, in the order of their keys. -/
def apply (path : String) (env : Env) (definitions : Dict String) : Env × EnvReport :=
  definitions.entries.foldl applyEntry (env, ⟨path, [], []⟩)

/-- The bytes are those of a document with a mapping. -/
def holdsMapping (bytes : List UInt8) : Bool :=
  match Text.decodeUtf8 bytes with
  | .ok cs => (Yaml.parse? (.ofList cs)).any (·.kind = .mapping)
  | .error _ => false

/-- The values that the bytes of an env file define. -/
def definitionsOf (reader : List Char → Reading) (path : String) (bytes : List UInt8) (env : Env) :
    Except ConfigError (Dict String) :=
  if FileName.isYaml path.toList || holdsMapping bytes then .error (.structuredEnvFile path)
  else match Text.decodeUtf8 bytes with
    | .error fault => .error (.envFile path (.encoding fault))
    | .ok text =>
      match definitions reader env text with
      | .error fault => .error (.envFile path (.line fault))
      | .ok values => .ok values

/-- Takes an env file into an environment: the environment that this leaves behind, and what became
of the keys of the file. -/
def load (reader : List Char → Reading) (files : Files) (path : String) (env : Env) :
    Env × Except ConfigError EnvReport :=
  match files.readBytes path with
  | .error fault => (env, .error (.read path fault))
  | .ok bytes =>
    match definitionsOf reader path bytes env with
    | .error fault => (env, .error fault)
    | .ok values =>
      let (env, report) := apply path env values
      (env, .ok report)

/-- The outcome for an env file. `process` holds the variables of the process, which the values of
the file can name too where their dollar signs were not marked. -/
def ingest (files : Files) (process : Env) (path : String) (env : Env) :
    Except ConfigError (Env × EnvReport) :=
  match load (read process) files path env with
  | (env, .ok report) => .ok (env, report)
  | (_, .error fault) => .error fault

end Dotpath.EnvFile
