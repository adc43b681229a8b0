import Dotpath.Dict

/-!
# Environments

An environment gives variables their values. After an env file has been taken in, a report says
which of its keys were new, and so where a value came from.
-/

namespace Dotpath

abbrev Env := Dict String

/-- Where a value came from. -/
inductive Origin where
  /-- Defined before the env file was read. -/
  | shell
  /-- Taken from the env file. -/
  | dotenv
deriving DecidableEq, Repr

def Origin.text : Origin → String
  | shell => "env (shell)"
  | dotenv => "env (dotenv)"

/-- What became of the keys of an env file, both lists in order. -/
structure EnvReport where
  path : String
  /-- Keys that were not defined before. -/
  applied : List String
  /-- Keys that were, and so kept their values. -/
  skipped : List String
deriving DecidableEq, Repr

namespace EnvReport

/-- The report on no file. -/
def none : EnvReport := ⟨"", [], []⟩

/-- Where a key has its value from; nothing if the file does not define it. -/
def origin? (report : EnvReport) (key : String) : Option Origin :=
  if report.applied.contains key then some .dotenv
  else if report.skipped.contains key then some .shell
  else .none

end EnvReport

namespace Env

/-- The value of a variable and where it came from. Empty values count as unset. -/
def value? (env : Env) (report : EnvReport) (name : String) : Option (String × Origin) :=
  match env.find? name with
  | some value =>
    if value.isEmpty then none
    else some (value, if report.origin? name = some .dotenv then .dotenv else .shell)
  | none => none

/-- A listing as an environment, later entries winning. Some systems spell `PATH` as `Path`. -/
def ofListing (vars : List (String × String)) : Env :=
  Dict.ofList (vars.map fun entry => (if entry.1 = "Path" then "PATH" else entry.1, entry.2))

end Env

end Dotpath
