import Dotpath.Proofs.EnvFile.Unchanged
import Dotpath.Startup

/-!
# What a startup changes

A startup takes in an env file, loads a configuration and sets the switch for concurrent work. The
switch comes last, when nothing can fail any more. The variables come first, and they stay where the
configuration then fails.

Results:
1. `load_cases`: all that a startup can come to.
2. `startup_effects`: a startup that fails changes nothing, unless it stops half-way.
3. `failed_startup_leaves_variables`: a startup that stops half-way.
-/

namespace Dotpath

open EnvFile

namespace Startup

/-- The variables of the process after the env file alone has been taken in. -/
def environment (startup : Startup) (host : Host) : Env :=
  match startup.envFile with
  | none => host.process
  | some path => (EnvFile.load (EnvFile.read host.process) host.files path host.process).1

/-- The switch as the flag sets it, or as it was. -/
def switch (startup : Startup) (host : Host) : Bool :=
  match startup.concurrency with
  | none => host.concurrency
  | some flag => enablesConcurrency flag

/-- The env file brings in variables, and then the configuration does not load. -/
def StopsHalfWay (startup : Startup) (host : Host) : Prop :=
  ∃ report fault, (startup.ingest host host.process).2 = .ok (some report) ∧
    report.applied ≠ [] ∧ startup.loadConfig host = .error fault

theorem fst_ingest (startup : Startup) (host : Host) :
    (startup.ingest host host.process).1 = startup.environment host := by
  unfold ingest environment
  cases startup.envFile <;> rfl

theorem setConcurrency_eq (startup : Startup) (host : Host) :
    startup.setConcurrency host = { host with concurrency := startup.switch host } := by
  unfold setConcurrency switch
  cases startup.concurrency <;> rfl

/-- All that a startup can come to. Whether it fails or not, the env file has had its effect, and
the switch is set only if nothing has failed. -/
theorem load_cases (startup : Startup) (host : Host) :
    (∃ fault, startup.load host
        = ({ host with process := startup.environment host }, .error fault) ∧
      ∀ report, (startup.ingest host host.process).2 = .ok report →
        startup.loadConfig host = .error fault) ∨
    ∃ loaded config, startup.load host
        = ({ host with process := startup.environment host, concurrency := startup.switch host },
          .ok loaded) ∧
      startup.loadConfig host = .ok config := by
  rw [← fst_ingest]
  unfold load loadOver
  cases hingest : startup.ingest host host.process with
  | mk env done =>
    cases done with
    | error fault => exact .inl ⟨fault, rfl, nofun⟩
    | ok report =>
      cases hconfig : startup.loadConfig host with
      | error fault => exact .inl ⟨fault, rfl, fun _ _ => rfl⟩
      | ok config =>
        refine .inr ⟨⟨config, report, env⟩, config, ?_, rfl⟩
        simp only [setConcurrency_eq]

theorem ingest_eq_self_iff (startup : Startup) (host : Host) (env : Env) :
    (startup.ingest host env).1 = env
      ↔ ∀ report, (startup.ingest host env).2 = .ok (some report) → report.applied = [] := by
  unfold ingest
  cases startup.envFile with
  | none => simp
  | some path =>
    dsimp only
    cases hload : EnvFile.load (EnvFile.read host.process) host.files path env with
    | mk after done =>
      cases done with
      | error fault => exact iff_of_true (env_of_load_error hload) nofun
      | ok report => simp [Except.map, load_eq_self_iff hload]

/-- Where the configuration fails, if it is reached at all, the variables of the process are as
before unless the env file has brought in some. -/
theorem environment_eq_iff {startup : Startup} {host : Host} {fault : ConfigError}
    (h : ∀ report, (startup.ingest host host.process).2 = .ok report →
      startup.loadConfig host = .error fault) :
    startup.environment host = host.process ↔ ¬startup.StopsHalfWay host := by
  rw [← fst_ingest, ingest_eq_self_iff]
  constructor
  · rintro hall ⟨report, _, hreport, hne, -⟩
    exact hne (hall report hreport)
  · intro hstops report hreport
    by_contra hne
    exact hstops ⟨report, fault, hreport, hne, h _ hreport⟩

theorem load_of_loadConfig {startup : Startup} {host : Host} {path : String} {env : Env}
    {report : EnvReport} (hfile : startup.envFile = some path)
    (hload : EnvFile.load (EnvFile.read host.process) host.files path host.process
      = (env, .ok report)) :
    startup.load host
      = match startup.loadConfig host with
        | .error fault => ({ host with process := env }, .error fault)
        | .ok config => ({ startup.setConcurrency host with process := env },
            .ok ⟨config, some report, env⟩) := by
  simp only [load, loadOver, ingest, hfile, hload, Except.map]
  cases startup.loadConfig host <;> rfl

end Startup

/-- What a startup changes. One that fails leaves the files and the switch alone, and the variables
of the process as the env file alone leaves them. So it changes nothing, unless the env file has
brought in variables when the configuration fails. One that succeeds leaves the variables as the env
file alone leaves them, and the switch as the flag sets it. A request that is carried out after the
startup changes neither. -/
theorem startup_effects (startup : Startup) (host : Host) :
    (∀ after fault, startup.load host = (after, .error fault) →
      after = { host with process := startup.environment host } ∧
      (after = host ↔ ¬startup.StopsHalfWay host) ∧
      ∀ action, startup.handle host action = (after, .error fault)) ∧
    ∀ after loaded, startup.load host = (after, .ok loaded) →
      after = { host with
        process := startup.environment host, concurrency := startup.switch host } ∧
      ∀ action, (startup.handle host action).1.process = startup.environment host ∧
        (startup.handle host action).1.concurrency = startup.switch host := by
  rcases startup.load_cases host with ⟨fault, hload, hstop⟩ | ⟨loaded, config, hload, -⟩
  · refine ⟨fun after fault' h => ?_, fun after loaded h => ?_⟩
    · obtain ⟨rfl, hfault⟩ := Prod.mk.inj (hload.symm.trans h)
      refine ⟨rfl, ?_, fun action => ?_⟩
      · rw [← Startup.environment_eq_iff hstop]
        exact ⟨congrArg Host.process, fun hsame => by rw [hsame]⟩
      · rw [Startup.handle, h]
        rfl
    · exact nomatch congrArg Prod.snd (hload.symm.trans h)
  · refine ⟨fun after fault h => ?_, fun after loaded' h => ?_⟩
    · exact nomatch congrArg Prod.snd (hload.symm.trans h)
    · obtain ⟨rfl, -⟩ := Prod.mk.inj (hload.symm.trans h)
      refine ⟨rfl, fun action => ?_⟩
      rw [Startup.handle, hload]
      exact ⟨rfl, rfl⟩

/-- An env file with one variable, and a document that is no configuration. -/
def halfWayHost : Host where
  files := .ofEntries [([".env".toList], .file (Files.bytesOf "A=1\n")),
    (["app.yaml".toList], .file (Files.bytesOf "- 1\n"))]
  process := {}
  concurrency := true

def halfWayProcess : Env :=
  .ofList [("A", "1")]

theorem halfWayProcess_ne : halfWayProcess ≠ halfWayHost.process := by
  decide

def halfWayStartup : Startup :=
  ⟨some "app.yaml", some ".env", some "0"⟩

theorem load_halfWayHost :
    EnvFile.load (EnvFile.read halfWayHost.process) halfWayHost.files ".env" halfWayHost.process
      = (halfWayProcess, .ok ⟨".env", ["A"], []⟩) := by
  decide +kernel

theorem load_halfWayStartup :
    halfWayStartup.load halfWayHost = ({ halfWayHost with process := halfWayProcess },
      .error (.notAMapping "app.yaml" .sequence)) := by
  have hconfig : halfWayStartup.loadConfig halfWayHost
      = .error (.notAMapping "app.yaml" .sequence) := by decide +kernel
  rw [Startup.load_of_loadConfig rfl load_halfWayHost, hconfig]

/-- The same without the document. -/
def plainStartup : Startup :=
  ⟨none, some ".env", some "0"⟩

theorem load_plainStartup :
    plainStartup.load halfWayHost = (⟨halfWayHost.files, halfWayProcess, false⟩,
      .ok ⟨.empty "", some ⟨".env", ["A"], []⟩, halfWayProcess⟩) := by
  have hswitch : plainStartup.setConcurrency halfWayHost
      = { halfWayHost with concurrency := false } := by
    rw [Startup.setConcurrency_eq]
    rfl
  rw [Startup.load_of_loadConfig rfl load_halfWayHost, hswitch]
  rfl

/-- With the document the startup stops half-way, and without it the startup succeeds. -/
theorem startup_effects_halfWay :
    halfWayStartup.load halfWayHost = ({ halfWayHost with process := halfWayProcess },
      .error (.notAMapping "app.yaml" .sequence)) ∧
    halfWayStartup.StopsHalfWay halfWayHost ∧
    halfWayStartup.handle halfWayHost (.list none) = ({ halfWayHost with process := halfWayProcess },
      .error (.notAMapping "app.yaml" .sequence)) ∧
    plainStartup.load halfWayHost = (⟨halfWayHost.files, halfWayProcess, false⟩,
      .ok ⟨.empty "", some ⟨".env", ["A"], []⟩, halfWayProcess⟩) ∧
    ∀ action, (plainStartup.handle halfWayHost action).1.process = halfWayProcess := by
  obtain ⟨-, hsame, hhandle⟩ := (startup_effects _ _).1 _ _ load_halfWayStartup
  obtain ⟨hafter, hactions⟩ := (startup_effects _ _).2 _ _ load_plainStartup
  have henv := congrArg Host.process hafter
  dsimp only at henv
  refine ⟨load_halfWayStartup, ?_, hhandle _, load_plainStartup, fun action => ?_⟩
  · by_contra hstops
    exact halfWayProcess_ne (congrArg Host.process (hsame.2 hstops))
  · rw [(hactions action).1, henv]

/-- The startup fails, and the process has a variable that it did not have before. -/
theorem failed_startup_leaves_variables :
    ∃ after fault, halfWayStartup.load halfWayHost = (after, .error fault) ∧
      halfWayHost.process.find? "A" = none ∧ after.process.find? "A" = some "1" ∧
      after ≠ halfWayHost :=
  ⟨_, _, load_halfWayStartup, rfl, by decide,
    fun h => halfWayProcess_ne (congrArg Host.process h)⟩

end Dotpath
