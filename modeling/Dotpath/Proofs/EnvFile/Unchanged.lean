import Dotpath.Proofs.EnvFile.Marks

/-!
# Env files that change nothing

A variable that is defined keeps its value, so a file all of whose keys are defined changes nothing.
That is what is left of a file that is taken in a second time. Its names may stand for other texts
then, for the first time has defined variables, but they are looked up in the same marked values.

Results:
1. `apply_of_contains`: what a file comes to whose keys are all defined.
2. `load_eq_self_iff`: a file changes nothing if and only if it brings in no key.
3. `load_again`: taking a file in twice is taking it in once.
-/

namespace Dotpath

namespace EnvFile

/-- Entries whose keys are all defined change no variable. -/
theorem foldl_applyEntry_of_contains {entries : Entries String} {env : Env}
    (h : ∀ entry ∈ entries, env.contains entry.1) (report : EnvReport) :
    (entries.foldl applyEntry (env, report)).1 = env := by
  induction entries generalizing report with
  | nil => rfl
  | cons entry rest ih =>
    obtain ⟨hentry, hrest⟩ := List.forall_mem_cons.1 h
    rw [foldl_applyEntry_cons, applyEntry, if_pos hentry]
    exact ih hrest _

/-- A file whose keys are all defined changes no variable, and all its keys are skipped. -/
theorem apply_of_contains {env : Env} {values : Dict String}
    (h : ∀ key, values.contains key → env.contains key) (path : String) :
    apply path env values = (env, ⟨path, [], values.keys⟩) := by
  have hkeys : ∀ key ∈ values.keys, env.contains key :=
    fun key hkey => h key ((Dict.mem_keys_iff values key).1 hkey)
  have hreport : (apply path env values).2 = ⟨path, [], values.keys⟩ := by
    rw [report_apply, List.filter_eq_self.2 hkeys,
      List.filter_eq_nil_iff.2 fun key hkey => by simp [hkeys key hkey]]
  refine Prod.ext (foldl_applyEntry_of_contains (fun entry hentry => ?_) _) hreport
  exact hkeys entry.1 (List.mem_map_of_mem hentry)

/-- A file that brings in no key leaves the environment as it was, and no other file does. -/
theorem apply_eq_self_iff (path : String) (env : Env) (values : Dict String) :
    (apply path env values).1 = env ↔ (apply path env values).2.applied = [] := by
  rw [report_apply, List.filter_eq_nil_iff]
  constructor
  · intro hsame key hkey
    obtain ⟨value, hvalue⟩ := (Dict.contains_iff _ _).1 ((Dict.mem_keys_iff _ _).1 hkey)
    have hfind := find?_apply path env values key
    rw [hsame, hvalue] at hfind
    cases hold : env.find? key with
    | some old => simp [Dict.contains, hold]
    | none => simp [hold] at hfind
  · intro hall
    refine congrArg Prod.fst (apply_of_contains (fun key hkey => ?_) path)
    simpa using hall key ((Dict.mem_keys_iff values key).2 hkey)

theorem load_eq_self_iff {reader : List Char → Reading} {files : Files} {path : String}
    {env after : Env} {report : EnvReport}
    (h : load reader files path env = (after, .ok report)) :
    after = env ↔ report.applied = [] := by
  obtain ⟨_, values, -, -, happly⟩ := load_eq_ok.1 h
  have hiff := apply_eq_self_iff path env values
  rwa [happly] at hiff

/-- Afterwards the keys of the file are defined. -/
theorem contains_apply {key : String} {values : Dict String} (h : values.contains key)
    (path : String) (env : Env) : (apply path env values).1.contains key := by
  rw [Dict.contains, find?_apply, Option.isSome_or, Bool.or_eq_true]
  exact .inr h

end EnvFile

open EnvFile

/-- Taking in an env file a second time changes nothing. It is accepted again, though the names in
its values may stand for other texts by then, it brings in no key, and it reports as skipped what it
reported as applied or skipped before, in order. The reader of the entries can be any function of
the marked text. -/
theorem load_again {reader : List Char → Reading} {files : Files} {path : String}
    {env after : Env} {report : EnvReport} (h : load reader files path env = (after, .ok report)) :
    ∃ skipped, load reader files path after = (after, .ok ⟨path, [], skipped⟩) ∧
      skipped.Pairwise (· < ·) ∧
      ∀ key, key ∈ skipped ↔ key ∈ report.applied ∨ key ∈ report.skipped := by
  obtain ⟨bytes, text, values, hbytes, hkind, htext, hfault, hvalues, happly⟩ := load_eq_ok_iff.1 h
  obtain ⟨values', hvalues'⟩ := exists_expandEntries hvalues after {}
  have hkeys : ∀ key, values'.contains key ↔ values.contains key := fun key => by
    rw [contains_iff_mem_entries hvalues', contains_iff_mem_entries hvalues]
  have hdefined : ∀ key, values'.contains key → after.contains key := by
    intro key hkey
    have hcontains := contains_apply ((hkeys key).1 hkey) path env
    rwa [happly] at hcontains
  refine ⟨values'.keys, load_eq_ok_iff.2 ⟨bytes, text, values', hbytes, hkind, htext, hfault,
    hvalues', apply_of_contains hdefined path⟩, values'.pairwise_keys, fun key => ?_⟩
  have hcovered := (ingested_apply hvalues path).covered key
  rw [happly] at hcovered
  rw [Dict.mem_keys_iff, hkeys, contains_iff_mem_entries hvalues, hcovered]

/-- A name that stands before its own key, whose value has an opening brace behind a dollar sign. -/
def forwardText : String :=
  "A=$B\nB='$\x7b'\nC=1\n"

def forwardFiles : Files :=
  .ofEntries [([".env".toList], .file (Files.bytesOf forwardText))]

def forwardEnv : Env :=
  .ofList [("C", "")]

def forwardAfter : Env :=
  .ofList [("A", ""), ("B", "$\x7b"), ("C", "")]

/-- The second time `A` would get another value, which is not looked into for names. -/
theorem load_again_forward :
    load (read {}) forwardFiles ".env" forwardEnv
      = (forwardAfter, .ok ⟨".env", ["A", "B"], ["C"]⟩) ∧
    definitions (read {}) forwardEnv forwardText.toList
      = .ok (.ofList [("A", ""), ("B", "$\x7b"), ("C", "1")]) ∧
    definitions (read {}) forwardAfter forwardText.toList
      = .ok (.ofList [("A", "$\x7b"), ("B", "$\x7b"), ("C", "1")]) ∧
    ∃ skipped, load (read {}) forwardFiles ".env" forwardAfter
        = (forwardAfter, .ok ⟨".env", [], skipped⟩) ∧
      skipped.Pairwise (· < ·) ∧ ∀ key, key ∈ skipped ↔ key ∈ ["A", "B"] ∨ key ∈ ["C"] := by
  have hload : load (read {}) forwardFiles ".env" forwardEnv
      = (forwardAfter, .ok ⟨".env", ["A", "B"], ["C"]⟩) := by decide +kernel
  exact ⟨hload, by decide +kernel, by decide +kernel, load_again hload⟩

end Dotpath
