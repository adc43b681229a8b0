import Dotpath.Proofs.EnvFile.Definitions

/-!
# Taking an env file into an environment

The definitions of a file are taken in one key after the other, over an environment that changes on
the way. Since every key comes up once, the environment at the start decides what becomes of it.

Results:
1. `find?_foldl_applyEntry`, `report_foldl_applyEntry`: what the environment and the report come to.
2. `load_all_or_nothing`: a load that fails changes nothing, and one that succeeds adds the new keys
   of the file, leaves the others alone, and reports on each.
-/

namespace Dotpath

/-! ## One key after the other -/

namespace EnvFile

theorem foldl_applyEntry_cons (state : Env × EnvReport) (entry : String × String)
    (rest : Entries String) :
    (entry :: rest).foldl applyEntry state = rest.foldl applyEntry (applyEntry state entry) := rfl

/-- Defined variables keep their values and the others have those of the entries. -/
theorem find?_foldl_applyEntry (entries : Entries String) (env : Env) (report : EnvReport)
    (name : String) :
    (entries.foldl applyEntry (env, report)).1.find? name
      = (env.find? name).or (entries.find? name) := by
  induction entries generalizing env report with
  | nil => simp [Entries.find?]
  | cons entry rest ih =>
    obtain ⟨key, value⟩ := entry
    rw [foldl_applyEntry_cons, applyEntry]
    dsimp only
    split
    · next hkey =>
      obtain ⟨old, hold⟩ := (Dict.contains_iff env key).1 hkey
      rw [ih, Entries.find?]
      by_cases h : key = name
      · subst h
        simp [hold]
      · rw [if_neg h]
    · next hkey =>
      rw [Bool.not_eq_true, Dict.contains_eq_false_iff] at hkey
      rw [ih, Entries.find?, Dict.find?_insert]
      by_cases h : key = name
      · subst h
        simp [hkey]
      · rw [if_neg h, if_neg (Ne.symm h)]

/-- Of entries with different keys, those are skipped whose keys the environment had at the
start. -/
theorem report_foldl_applyEntry {entries : Entries String} (h : entries.Sorted) (env : Env)
    (report : EnvReport) :
    (entries.foldl applyEntry (env, report)).2
      = { report with
          applied := report.applied ++ (entries.map (·.1)).filter (!env.contains ·)
          skipped := report.skipped ++ (entries.map (·.1)).filter (env.contains ·) } := by
  induction entries generalizing env report with
  | nil => simp
  | cons entry rest ih =>
    obtain ⟨key, value⟩ := entry
    obtain ⟨hhead, hrest⟩ := List.pairwise_cons.1 h
    rw [foldl_applyEntry_cons, applyEntry]
    dsimp only
    split
    · next hkey =>
      rw [ih hrest]
      simp [hkey]
    · next hkey =>
      -- The key that is new now does not come up again.
      have hsame : ∀ other ∈ rest.map (·.1),
          (env.insert key value).contains other = env.contains other := by
        intro other hother
        obtain ⟨entry, hentry, rfl⟩ := List.mem_map.1 hother
        have hne : entry.1 ≠ key := (String.ne_of_lt (hhead entry hentry)).symm
        simp [Dict.contains_insert, hne]
      rw [ih hrest, List.filter_congr hsame,
        List.filter_congr (fun other hother => congrArg (!·) (hsame other hother))]
      simp [hkey]

theorem find?_apply (path : String) (env : Env) (values : Dict String) (name : String) :
    (apply path env values).1.find? name = (env.find? name).or (values.find? name) :=
  find?_foldl_applyEntry values.entries env _ name

theorem report_apply (path : String) (env : Env) (values : Dict String) :
    (apply path env values).2
      = ⟨path, values.keys.filter (!env.contains ·), values.keys.filter (env.contains ·)⟩ :=
  report_foldl_applyEntry values.sorted env _

/-! ## What a load has to come to -/

/-- The environment after entries have been taken into `env`, and the report on them. -/
structure Ingested (env : Env) (entries : List (String × List Char)) (after : Env)
    (report : EnvReport) : Prop where
  /-- A defined variable keeps its value, be it empty. -/
  kept : ∀ name value, env.find? name = some value → after.find? name = some value
  /-- A new key has what its last entry expands to. -/
  taken : ∀ before name marked later, entries = before ++ (name, marked) :: later →
    (∀ entry ∈ later, entry.1 ≠ name) → env.find? name = none →
    ∃ earlier value, expandEntries env {} before = .ok earlier ∧
      expand (resolve env earlier) marked = .ok value ∧ after.find? name = some (.ofList value)
  /-- No other variable is defined. -/
  untouched : ∀ name, env.find? name = none → (∀ entry ∈ entries, entry.1 ≠ name) →
    after.find? name = none
  applied_sorted : report.applied.Pairwise (· < ·)
  skipped_sorted : report.skipped.Pairwise (· < ·)
  disjoint : ∀ key ∈ report.applied, key ∉ report.skipped
  /-- The report covers the keys of the entries and no others. -/
  covered : ∀ key, (key ∈ report.applied ∨ key ∈ report.skipped) ↔ ∃ entry ∈ entries, entry.1 = key
  /-- The keys that were defined are the ones skipped. -/
  skipped_iff : ∀ entry ∈ entries, entry.1 ∈ report.skipped ↔ ∃ old, env.find? entry.1 = some old
  /-- A value comes from the file if its key is one of the file's that was not defined before. -/
  from_file : ∀ name value, after.value? report name = some (value, .dotenv) ↔
    after.find? name = some value ∧ value ≠ "" ∧ env.find? name = none ∧
      ∃ entry ∈ entries, entry.1 = name
  /-- A value comes from the shell if it was there before. -/
  from_shell : ∀ name value, after.value? report name = some (value, .shell) ↔
    env.find? name = some value ∧ value ≠ ""

section Report

variable {env : Env} {values : Dict String}

theorem mem_filter_keys (test : String → Bool) (key : String) :
    key ∈ values.keys.filter test ↔ values.contains key ∧ test key := by
  rw [List.mem_filter, Dict.mem_keys_iff]

theorem origin?_apply (path name : String) :
    (apply path env values).2.origin? name
      = if values.contains name then some (if env.contains name then .shell else .dotenv)
        else none := by
  rw [report_apply, EnvReport.origin?]
  simp only [List.contains_eq_mem, mem_filter_keys, decide_eq_true_eq]
  cases values.contains name <;> cases env.contains name <;> simp

/-- Empty values count as none. -/
def shown (origin : Origin) (value : String) : Option (String × Origin) :=
  if value.isEmpty then none else some (value, origin)

theorem shown_eq_some {origin origin' : Origin} {value value' : String} :
    shown origin value = some (value', origin') ↔ value = value' ∧ value' ≠ "" ∧ origin = origin' := by
  simp only [shown, String.isEmpty_iff]
  split
  · next h =>
    subst h
    exact ⟨nofun, fun ⟨hvalue, hne, _⟩ => absurd hvalue.symm hne⟩
  · next h =>
    rw [Option.some_inj, Prod.mk.injEq]
    constructor
    · rintro ⟨rfl, rfl⟩
      exact ⟨rfl, h, rfl⟩
    · rintro ⟨rfl, -, rfl⟩
      exact ⟨rfl, rfl⟩

theorem value?_apply (path name : String) :
    (apply path env values).1.value? (apply path env values).2 name
      = match env.find? name with
        | some value => shown .shell value
        | none => (values.find? name).bind (shown .dotenv) := by
  rw [Env.value?, find?_apply, origin?_apply, Dict.contains, Dict.contains]
  cases env.find? name <;> cases values.find? name <;> simp [shown]

end Report

theorem ingested_apply {env : Env} {entries : List (String × List Char)} {values : Dict String}
    (h : expandEntries env {} entries = .ok values) (path : String) :
    Ingested env entries (apply path env values).1 (apply path env values).2 where
  kept name value hvalue := by rw [find?_apply, hvalue, Option.some_or]
  taken before name marked later hsplit hlater hname := by
    subst hsplit
    obtain ⟨earlier, value, hbefore, hvalue, hfind⟩ := find?_of_expandEntries_last h hlater
    exact ⟨earlier, value, hbefore, hvalue, by rw [find?_apply, hname, Option.none_or, hfind]⟩
  untouched name hname hentries := by
    rw [find?_apply, hname, Option.none_or, find?_of_expandEntries_other h hentries]
    rfl
  applied_sorted := by
    rw [report_apply]
    exact (Dict.pairwise_keys values).filter _
  skipped_sorted := by
    rw [report_apply]
    exact (Dict.pairwise_keys values).filter _
  disjoint key := by
    rw [report_apply]
    simp only [mem_filter_keys]
    intro happlied hskipped
    simp [hskipped.2] at happlied
  covered key := by
    rw [← contains_iff_mem_entries h, report_apply]
    simp only [mem_filter_keys]
    cases env.contains key <;> simp
  skipped_iff entry hentry := by
    have hkey := (contains_iff_mem_entries h entry.1).2 ⟨entry, hentry, rfl⟩
    rw [report_apply, mem_filter_keys, Dict.contains_iff env]
    simp [hkey]
  from_file name value := by
    rw [← contains_iff_mem_entries h, Dict.contains_iff, value?_apply, find?_apply]
    cases env.find? name with
    | some old => simp [shown_eq_some]
    | none => cases values.find? name <;> simp [shown_eq_some]
  from_shell name value := by
    rw [value?_apply]
    cases env.find? name with
    | some old => simp [shown_eq_some]
    | none => cases values.find? name <;> simp [shown_eq_some]

theorem load_eq_ok {reader : List Char → Reading} {files : Files} {path : String}
    {env after : Env} {report : EnvReport} :
    load reader files path env = (after, .ok report)
      ↔ ∃ bytes values, files.readBytes path = .ok bytes ∧
        definitionsOf reader path bytes env = .ok values ∧
        apply path env values = (after, report) := by
  unfold load
  cases files.readBytes path with
  | error fault => simp
  | ok bytes =>
    dsimp only
    cases hvalues : definitionsOf reader path bytes env with
    | error fault => simp [hvalues]
    | ok values => simp [hvalues, Prod.ext_iff]

/-- A load succeeds on a text that is no document, is read to its end and has values that can all be
expanded. -/
theorem load_eq_ok_iff {reader : List Char → Reading} {files : Files} {path : String}
    {env after : Env} {report : EnvReport} :
    load reader files path env = (after, .ok report)
      ↔ ∃ bytes text values, files.readBytes path = .ok bytes ∧
        (FileName.isYaml path.toList || holdsMapping bytes) = false ∧
        Text.decodeUtf8 bytes = .ok text ∧ (reader (markAll text)).fault = none ∧
        expandEntries env {} (reader (markAll text)).entries = .ok values ∧
        apply path env values = (after, report) := by
  rw [load_eq_ok]
  simp only [definitionsOf_eq_ok, definitions_eq_ok]
  constructor
  · rintro ⟨bytes, values, hbytes, ⟨hkind, text, htext, hfault, hvalues⟩, happly⟩
    exact ⟨bytes, text, values, hbytes, hkind, htext, hfault, hvalues, happly⟩
  · rintro ⟨bytes, text, values, hbytes, hkind, htext, hfault, hvalues, happly⟩
    exact ⟨bytes, values, hbytes, ⟨hkind, text, htext, hfault, hvalues⟩, happly⟩

theorem mem_applied_iff {path key : String} {env : Env} {values : Dict String} :
    key ∈ (apply path env values).2.applied ↔ values.contains key ∧ env.find? key = none := by
  rw [report_apply, mem_filter_keys, ← Dict.contains_eq_false_iff]
  simp

/-- A load takes what the last entry of a key is worth, if the key is new. -/
theorem find?_of_load {reader : List Char → Reading} {files : Files} {path : String}
    {bytes : List UInt8} {text : List Char} (hbytes : files.readBytes path = .ok bytes)
    (htext : Text.decodeUtf8 bytes = .ok text) {env after : Env} {report : EnvReport}
    (h : load reader files path env = (after, .ok report))
    {before later : List (String × List Char)} {key : String} {marked : List Char}
    (hentries : (reader (markAll text)).entries = before ++ (key, marked) :: later)
    (hlater : ∀ entry ∈ later, entry.1 ≠ key) :
    (key ∈ report.applied ↔ env.find? key = none) ∧
    ∃ earlier value, expandEntries env {} before = .ok earlier ∧
      expand (resolve env earlier) marked = .ok value ∧
      after.find? key = (env.find? key).or (some (.ofList value)) := by
  obtain ⟨bytes', text', values, hbytes', -, htext', -, hvalues, happly⟩ := load_eq_ok_iff.1 h
  obtain rfl := Except.ok.inj (hbytes.symm.trans hbytes')
  obtain rfl := Except.ok.inj (htext.symm.trans htext')
  have hkey := (contains_iff_mem_entries hvalues key).2 ⟨(key, marked), by simp [hentries], rfl⟩
  rw [hentries] at hvalues
  obtain ⟨earlier, value, hbefore, hvalue, hfind⟩ := find?_of_expandEntries_last hvalues hlater
  have hafter : (apply path env values).1 = after := by rw [happly]
  have hreport : (apply path env values).2 = report := by rw [happly]
  refine ⟨?_, earlier, value, hbefore, hvalue, ?_⟩
  · rw [← hreport, mem_applied_iff, hkey]
    simp
  · rw [← hafter, find?_apply, hfind]

theorem env_of_load_error {reader : List Char → Reading} {files : Files} {path : String}
    {env after : Env} {fault : ConfigError}
    (h : load reader files path env = (after, .error fault)) : after = env := by
  unfold load at h
  split at h
  · exact (congrArg Prod.fst h).symm
  · split at h
    · exact (congrArg Prod.fst h).symm
    · exact nomatch congrArg Prod.snd h

end EnvFile

open EnvFile

/-- A load that fails, for whatever reason, leaves the environment as it was. One that succeeds has
read the whole file: variables that were defined have kept their values, the new keys of the file
have what their last entries expand to, and the report and the origins of values say so. The reader
of the entries can be any function of the marked text. -/
theorem load_all_or_nothing (reader : List Char → Reading) (files : Files) (path : String)
    (env : Env) :
    (∀ after fault, load reader files path env = (after, .error fault) → after = env) ∧
    ∀ after report, load reader files path env = (after, .ok report) →
      ∃ bytes text, files.readBytes path = .ok bytes ∧ Text.decodeUtf8 bytes = .ok text ∧
        (reader (markAll text)).fault = none ∧
        Ingested env (reader (markAll text)).entries after report := by
  refine ⟨fun after fault h => env_of_load_error h, fun after report h => ?_⟩
  obtain ⟨bytes, values, hbytes, hvalues, happly⟩ := load_eq_ok.1 h
  obtain ⟨-, text, htext, hvalues⟩ := definitionsOf_eq_ok.1 hvalues
  obtain ⟨hfault, hvalues⟩ := definitions_eq_ok.1 hvalues
  have hingested := ingested_apply hvalues path
  rw [happly] at hingested
  exact ⟨bytes, text, hbytes, htext, hfault, hingested⟩

/-- An env file with a key of the shell, an empty variable and a key that it defines twice, and one
with a brace that stays open. -/
def shopFiles : Files :=
  .ofEntries [([".env".toList], .file (Files.bytesOf "A=$HOME\nHOME=x\nB=${A}/b\nA=${A}/z\nC=\n")),
    (["bad".toList], .file (Files.bytesOf "A=$HOME\nB=$\x7bA\n"))]

def shopEnv : Env :=
  .ofList [("C", ""), ("HOME", "/h")]

def shopAfter : Env :=
  .ofList [("A", "/h/z"), ("B", "/h/b"), ("C", ""), ("HOME", "/h")]

theorem load_all_or_nothing_shop :
    (load (read {}) shopFiles "bad" shopEnv).2
      = .error (.envFile "bad" (.line ⟨"$\x7bA".toList, 2⟩)) ∧
    (load (read {}) shopFiles "bad" shopEnv).1 = shopEnv ∧
    load (read {}) shopFiles ".env" shopEnv
      = (shopAfter, .ok ⟨".env", ["A", "B"], ["C", "HOME"]⟩) ∧
    ∃ bytes text, shopFiles.readBytes ".env" = .ok bytes ∧ Text.decodeUtf8 bytes = .ok text ∧
      (read {} (markAll text)).fault = none ∧
      Ingested shopEnv (read {} (markAll text)).entries shopAfter
        ⟨".env", ["A", "B"], ["C", "HOME"]⟩ := by
  have hbad : (load (read {}) shopFiles "bad" shopEnv).2
      = .error (.envFile "bad" (.line ⟨"$\x7bA".toList, 2⟩)) := by decide +kernel
  have hgood : load (read {}) shopFiles ".env" shopEnv
      = (shopAfter, .ok ⟨".env", ["A", "B"], ["C", "HOME"]⟩) := by decide +kernel
  have h := load_all_or_nothing (read {}) shopFiles
  refine ⟨hbad, (h "bad" shopEnv).1 _ (.envFile "bad" (.line ⟨"$\x7bA".toList, 2⟩)) ?_, hgood,
    (h ".env" shopEnv).2 _ _ hgood⟩
  rw [← hbad]

end Dotpath
