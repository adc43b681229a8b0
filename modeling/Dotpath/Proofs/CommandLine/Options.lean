import Dotpath.Proofs.CommandLine.Spelling

/-!
# Options of one level

The options that are given on one level of a command line, one after another. An option without a
value stays pending until the next word shows whether it gets one.

Results:
1. `Level.take_of_isReady`: what one option does to a level that does not have it.
2. `Level.foldlM_take`, `Options.foldlM_take`: options are taken in any order, and come to the same.
-/

namespace Dotpath

namespace CommandLine

theorem settingOf_withSetting (startup : Startup) (value : String) (flag other : Flag) :
    settingOf (withSetting startup value flag) other
      = if flag = other then some value else settingOf startup other := by
  cases flag <;> cases other <;> rfl

theorem ext_settingOf {first second : Startup}
    (h : ∀ flag value, settingOf first flag = some value ↔ settingOf second flag = some value) :
    first = second := by
  have hsame : ∀ flag, settingOf first flag = settingOf second flag := fun flag =>
    Option.ext (h flag)
  obtain ⟨config, envFile, concurrency⟩ := first
  obtain ⟨config', envFile', concurrency'⟩ := second
  obtain rfl : config = config' := hsame .config
  obtain rfl : envFile = envFile' := hsame .envFile
  obtain rfl : concurrency = concurrency' := hsame .concurrency
  rfl

namespace Given

theorem checkValue_eq (given : Given) :
    checkValue given.flag given.value? = .ok given.setting := by
  cases given with
  | config path => exact if_neg path.2
  | envFile path => exact if_neg path.2
  | concurrency value => rfl

theorem isNone_value? (given : Given) :
    (given.value?.isNone && given.flag ≠ .concurrency) = false := by
  cases given <;> simp [value?, flag]

theorem eq_of_value?_eq_none {given : Given} (h : given.value? = none) :
    given = .concurrency none := by
  cases given with
  | config path => exact nomatch h
  | envFile path => exact nomatch h
  | concurrency value => exact congrArg concurrency h

theorem assign_eq {startup : Startup} {given : Given} (h : settingOf startup given.flag = none) :
    assign startup given.flag given.value? = .ok (withSetting startup given.setting given.flag) := by
  simp only [assign, given.isNone_value?, h, given.checkValue_eq, Option.isSome_none,
    Bool.false_eq_true, if_false]
  rfl

end Given

namespace Level

/-- What the options of the level come to, with the last one settled. -/
def startup (level : Level) : Startup :=
  match level.pending with
  | none => level.settled
  | some (flag, value) => withSetting level.settled (value.getD "") flag

/-- No option is pending but the concurrency flag without a value, and it is given for the first
time. -/
def IsReady (level : Level) : Prop :=
  level.pending = none ∨
    level.pending = some (.concurrency, none) ∧ level.settled.concurrency = none

theorem isReady_start : start.IsReady :=
  .inl rfl

theorem settle_of_isReady {level : Level} (h : level.IsReady) :
    level.settle = .ok ⟨level.startup, none⟩ := by
  obtain ⟨settled, pending⟩ := level
  rcases h with hpending | ⟨hpending, hfree⟩
  · obtain rfl : pending = none := hpending
    rfl
  · obtain rfl : pending = some (.concurrency, none) := hpending
    have hassign : assign settled .concurrency none = .ok (withSetting settled "" .concurrency) :=
      (Given.concurrency none).assign_eq hfree
    simp only [settle, hassign]
    rfl

/-- Takes an option as it is given. -/
def take (level : Level) (given : Given) : Except Fault Level :=
  level.takeOption given.flag.name given.value?

theorem take_of_isReady {level : Level} {given : Given} (h : level.IsReady)
    (hfree : settingOf level.startup given.flag = none) :
    ∃ after, level.take given = .ok after ∧ after.IsReady ∧
      after.startup = withSetting level.startup given.setting given.flag ∧
      (after.awaits ↔ given = .concurrency none) := by
  simp only [take, takeOption, Flag.ofName?_name, settle_of_isReady h]
  cases hvalue : given.value? with
  | none =>
    obtain rfl := Given.eq_of_value?_eq_none hvalue
    exact ⟨_, rfl, .inr ⟨rfl, hfree⟩, rfl, iff_of_true rfl rfl⟩
  | some value =>
    have hassign := Given.assign_eq hfree
    rw [hvalue] at hassign
    have hgiven : given ≠ .concurrency none := by
      rintro rfl
      exact nomatch hvalue
    refine ⟨⟨withSetting level.startup given.setting given.flag, none⟩, ?_, .inl rfl, rfl,
      iff_of_false nofun hgiven⟩
    simp only [bind, Except.bind, hassign]
    rfl

/-- Options that give every flag once are all taken. -/
theorem foldlM_take {level : Level} {given : List Given} (h : level.IsReady)
    (hnodup : (given.map Given.flag).Nodup)
    (hfree : ∀ option ∈ given, settingOf level.startup option.flag = none) :
    ∃ after, given.foldlM take level = .ok after ∧ after.IsReady ∧
      (∀ flag value, settingOf after.startup flag = some value ↔
        (∃ option ∈ given, option.flag = flag ∧ option.setting = value) ∨
          settingOf level.startup flag = some value) ∧
      (after.awaits ↔ given.getLast? = some (.concurrency none) ∨ given = [] ∧ level.awaits) := by
  induction given generalizing level with
  | nil => exact ⟨level, rfl, h, by simp, by simp⟩
  | cons first rest ih =>
    have hunset := hfree _ List.mem_cons_self
    obtain ⟨middle, hfirst, hready, hstartup, hawaits⟩ := take_of_isReady h hunset
    rw [List.map_cons, List.nodup_cons] at hnodup
    have hfree' : ∀ option ∈ rest, settingOf middle.startup option.flag = none := by
      intro option hoption
      have hne : first.flag ≠ option.flag := fun hsame =>
        hnodup.1 (hsame ▸ List.mem_map_of_mem hoption)
      rw [hstartup, settingOf_withSetting, if_neg hne]
      exact hfree _ (List.mem_cons_of_mem _ hoption)
    obtain ⟨after, hrest, hafter, hsettings, hlast⟩ := ih hready hnodup.2 hfree'
    refine ⟨after, ?_, hafter, fun flag value => ?_, ?_⟩
    · rw [List.foldlM_cons, hfirst]
      exact hrest
    · rw [hsettings, hstartup, settingOf_withSetting]
      by_cases hsame : first.flag = flag
      · subst hsame
        simp [hunset, or_comm]
      · simp [hsame]
    · rw [hlast, hawaits]
      cases rest <;> simp

end Level

namespace Options

theorem nodup_flags (options : Options) : (options.given.map Given.flag).Nodup := by
  obtain ⟨config, envFile, concurrency⟩ := options
  cases config <;> cases envFile <;> cases concurrency <;> simp [given, Given.flag]

theorem settingOf_startup_iff (options : Options) (flag : Flag) (value : String) :
    settingOf options.startup flag = some value ↔
      ∃ option ∈ options.given, option.flag = flag ∧ option.setting = value := by
  obtain ⟨config, envFile, concurrency⟩ := options
  cases flag <;> cases config <;> cases envFile <;> cases concurrency <;>
    simp [startup, given, settingOf, Given.flag, Given.setting, Given.value?]

/-- Options are taken in any order, and come to the same. -/
theorem foldlM_take (options : Options) {given : List Given} (h : given.Perm options.given) :
    ∃ after, given.foldlM Level.take .start = .ok after ∧ after.IsReady ∧
      after.startup = options.startup ∧
      (after.awaits ↔ given.getLast? = some (.concurrency none)) := by
  have hnodup := (h.map Given.flag).nodup_iff.2 options.nodup_flags
  have hfree : ∀ flag, settingOf Level.start.startup flag = none := fun flag => by
    cases flag <;> rfl
  obtain ⟨after, hafter, hready, hsettings, hlast⟩ :=
    Level.foldlM_take Level.isReady_start hnodup fun option _ => hfree option.flag
  refine ⟨after, hafter, hready, ext_settingOf fun flag value => ?_, ?_⟩
  · rw [hsettings, options.settingOf_startup_iff, hfree]
    simp [h.mem_iff]
  · rw [hlast]
    simp [Level.awaits, Level.start]

end Options

end CommandLine

end Dotpath
