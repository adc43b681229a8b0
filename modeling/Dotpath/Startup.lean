import Dotpath.Config.Action
import Dotpath.EnvFile

/-!
# Startup

What a program does before its work: take in an env file, load its configuration, and set the switch
for concurrent work. The host holds all that these steps can see or change.
-/

namespace Dotpath

/-- The flag turns concurrent work on: it is empty, `true` or `1`. -/
def enablesConcurrency (flag : String) : Bool :=
  flag = "" || flag = "true" || flag = "1"

/-- The surroundings of the program. The variables of a real process are a map with limits: setting
one to a value with a null character aborts the program half-way, and names with an equals sign are
looked up in its own way. Env files with such values, or with references to such names, are outside
what is said of a host. -/
structure Host where
  files : Files
  /-- The variables of the process. -/
  process : Env
  /-- Concurrent work is allowed. -/
  concurrency : Bool

/-- What is to be loaded. -/
structure Startup where
  config : Option String
  envFile : Option String
  /-- The raw text of the concurrency flag. -/
  concurrency : Option String
deriving DecidableEq, Repr

structure Loaded where
  config : Config
  /-- What became of the env file, if there was one. -/
  report : Option EnvReport
  env : Env

namespace Loaded

/-- The value of a variable and where it came from. -/
def value? (loaded : Loaded) (name : String) : Option (String × Origin) :=
  loaded.env.value? (loaded.report.getD .none) name

end Loaded

namespace Startup

/-- Takes the env file in, if one is to be loaded. -/
def ingest (startup : Startup) (host : Host) (env : Env) :
    Env × Except ConfigError (Option EnvReport) :=
  match startup.envFile with
  | none => (env, .ok none)
  | some path =>
    let (env, done) := EnvFile.load (EnvFile.read host.process) host.files path env
    (env, done.map some)

/-- Loads the configuration, which is empty if there is to be none. -/
def loadConfig (startup : Startup) (host : Host) : Except ConfigError Config :=
  match startup.config with
  | none => .ok (.empty "")
  | some path => Config.load host.files path

/-- Sets the switch by the flag, if there is one. -/
def setConcurrency (startup : Startup) (host : Host) : Host :=
  match startup.concurrency with
  | none => host
  | some flag => { host with concurrency := enablesConcurrency flag }

/-- Loads over an environment. The environment that is returned holds the env file even where the
configuration then fails. -/
def loadOver (startup : Startup) (host : Host) (env : Env) :
    Host × Env × Except ConfigError Loaded :=
  match startup.ingest host env with
  | (env, .error fault) => (host, env, .error fault)
  | (env, .ok report) =>
    match startup.loadConfig host with
    | .error fault => (host, env, .error fault)
    | .ok config => (startup.setConcurrency host, env, .ok ⟨config, report, env⟩)

/-- Loads over the variables of the process. -/
def load (startup : Startup) (host : Host) : Host × Except ConfigError Loaded :=
  let (host, process, result) := startup.loadOver host host.process
  ({ host with process }, result)

/-- Carries out a request on what has been loaded. -/
def act (host : Host) (action : Action) :
    Except ConfigError Loaded → Host × Except ConfigError Outcome
  | .error fault => (host, .error fault)
  | .ok loaded =>
    let (files, outcome) := loaded.config.handle host.files action
    ({ host with files }, outcome)

/-- Loads over an environment and carries out a request. -/
def handleOver (startup : Startup) (host : Host) (env : Env) (action : Action) :
    Host × Env × Except ConfigError Outcome :=
  let (host, env, result) := startup.loadOver host env
  let (host, outcome) := act host action result
  (host, env, outcome)

/-- Loads over the variables of the process and carries out a request. -/
def handle (startup : Startup) (host : Host) (action : Action) :
    Host × Except ConfigError Outcome :=
  let (host, result) := startup.load host
  act host action result

end Startup

end Dotpath
