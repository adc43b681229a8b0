import Dotpath.Proofs.EnvFile.Expansion
import Dotpath.Proofs.EnvFile.Faults
import Dotpath.Proofs.EnvFile.Loading
import Dotpath.Proofs.Text.Utf8

/-!
# What becomes of marks

Marks are for the way from marking to expanding. No value keeps one. Yet a character of the file
that looks like a mark is replaced like one, and a fault that is found on the way shows the marks of
its line.

Results:
1. `unmarked_of_expandEntries`: the values of a file have no marks.
2. `taken_as_read_iff`: without dollar signs, a value is taken as it is read unless it has a mark.
3. `marks_shown_iff`: no value shows a mark, and which faults do.
-/

namespace Dotpath

namespace EnvFile

/-! ## Values -/

/-- No value has a mark. -/
def Unmarked (values : Dict String) : Prop :=
  ∀ name value, values.find? name = some value → mark ∉ value.toList

theorem unmarked_empty : Unmarked {} := by
  intro name value h
  exact nomatch h

theorem Unmarked.insert {values : Dict String} (h : Unmarked values) (key : String)
    {value : List Char} (hvalue : mark ∉ value) : Unmarked (values.insert key (.ofList value)) := by
  intro name found hfound
  rw [Dict.find?_insert] at hfound
  split at hfound
  · rw [← Option.some.inj hfound, String.toList_ofList]
    exact hvalue
  · exact h name found hfound

theorem not_mem_resolve {env : Env} {earlier : Dict String} (henv : Unmarked env)
    (hearlier : Unmarked earlier) (name : List Char) : mark ∉ resolve env earlier name := by
  rw [resolve]
  split
  · next value hvalue => exact henv _ value hvalue
  · cases hfound : earlier.find? (.ofList name) with
    | some value => exact hearlier _ value hfound
    | none => exact List.not_mem_nil

/-- Whatever marks the entries of a file have, its values have none. -/
theorem unmarked_of_expandEntries {env : Env} (henv : Unmarked env) {earlier values : Dict String}
    {entries : List (String × List Char)} (h : expandEntries env earlier entries = .ok values)
    (hearlier : Unmarked earlier) : Unmarked values := by
  induction entries generalizing earlier with
  | nil => exact Except.ok.inj h ▸ hearlier
  | cons entry rest ih =>
    obtain ⟨key, marked⟩ := entry
    obtain ⟨value, hvalue, hrest⟩ := expandEntries_cons_eq_ok.1 h
    have hnot : mark ∉ value := not_mem_of_expand (not_mem_resolve henv hearlier) hvalue
    exact ih hrest (hearlier.insert key hnot)

theorem unmarked_apply {env : Env} (henv : Unmarked env) {values : Dict String}
    (hvalues : Unmarked values) (path : String) : Unmarked (apply path env values).1 := by
  intro name value h
  rw [find?_apply] at h
  cases hname : env.find? name with
  | some old =>
    rw [hname, Option.some_or] at h
    exact henv name value (hname.trans h)
  | none =>
    rw [hname, Option.none_or] at h
    exact hvalues name value h

/-! ## Texts without dollar signs -/

/-- Whether entries can be expanded does not depend on what names stand for. -/
theorem exists_expandEntries {env : Env} {earlier values : Dict String}
    {entries : List (String × List Char)} (h : expandEntries env earlier entries = .ok values)
    (env' : Env) (earlier' : Dict String) :
    ∃ values', expandEntries env' earlier' entries = .ok values' := by
  induction entries generalizing earlier earlier' with
  | nil => exact ⟨earlier', rfl⟩
  | cons entry rest ih =>
    obtain ⟨key, marked⟩ := entry
    obtain ⟨value, hvalue, hrest⟩ := expandEntries_cons_eq_ok.1 h
    obtain ⟨value', hvalue'⟩ := exists_expand hvalue (resolve env' earlier')
    obtain ⟨values', hvalues'⟩ := ih hrest (earlier'.insert key (.ofList value'))
    exact ⟨values', expandEntries_cons_eq_ok.2 ⟨value', hvalue', hvalues'⟩⟩

/-- A file that one environment accepts is accepted by every other. -/
theorem exists_load {reader : List Char → Reading} {files : Files} {path : String}
    {env after : Env} {report : EnvReport}
    (h : load reader files path env = (after, .ok report)) (env' : Env) :
    ∃ after' report', load reader files path env' = (after', .ok report') := by
  obtain ⟨bytes, text, values, hbytes, hkind, htext, hfault, hvalues, -⟩ := load_eq_ok_iff.1 h
  obtain ⟨values', hvalues'⟩ := exists_expandEntries hvalues env' {}
  exact ⟨_, _, load_eq_ok_iff.2
    ⟨bytes, text, values', hbytes, hkind, htext, hfault, hvalues', rfl⟩⟩

end EnvFile

open EnvFile

/-- A file without dollar signs is accepted or refused alike in every environment, and the value of
a key that is new there is the one that is read in its last entry, character for character, if and
only if no character of it is the mark. -/
theorem taken_as_read_iff {reader : List Char → Reading} {files : Files} {path : String}
    {bytes : List UInt8} {text : List Char} (hbytes : files.readBytes path = .ok bytes)
    (htext : Text.decodeUtf8 bytes = .ok text) (hdollar : '$' ∉ text) {env after : Env}
    {report : EnvReport} (haccepted : load reader files path env = (after, .ok report)) :
    (∀ env', ∃ after' report', load reader files path env' = (after', .ok report')) ∧
    ∀ before key value later, (reader text).entries = before ++ (key, value) :: later →
      (∀ entry ∈ later, entry.1 ≠ key) →
      ((∀ env' after' report', load reader files path env' = (after', .ok report') →
        key ∈ report'.applied → after'.find? key = some (.ofList value)) ↔ mark ∉ value) := by
  refine ⟨exists_load haccepted, fun before key value later hentries hlater => ?_⟩
  have hmarked : markAll text = text := markFrom_of_not_mem hdollar .start
  rw [← hmarked] at hentries
  constructor
  · -- Where no variable is defined, no value has a mark.
    intro h
    obtain ⟨after', report', hload⟩ := exists_load haccepted {}
    obtain ⟨happlied, -⟩ := find?_of_load hbytes htext hload hentries hlater
    have hvalue := h {} after' report' hload (happlied.2 rfl)
    obtain ⟨bytes', text', values, _, _, _, _, hvalues, happly⟩ := load_eq_ok_iff.1 hload
    have hunmarked := unmarked_of_expandEntries unmarked_empty hvalues unmarked_empty
    have hafter := unmarked_apply unmarked_empty hunmarked path
    rw [happly] at hafter
    simpa using hafter key _ hvalue
  · intro hnot env' after' report' hload hkey
    obtain ⟨happlied, earlier, found, -, hfound, hfind⟩ :=
      find?_of_load hbytes htext hload hentries hlater
    rw [expand_of_not_mem hnot] at hfound
    rw [hfind, happlied.1 hkey, Option.none_or, Except.ok.inj hfound]

/-- An env file without dollar signs: quotes, a comment, an escape, a character next to the mark in
the private use area, and a key with two entries. -/
def plainText : String :=
  "A=x # 'y'\nB='\ue001 #'\"\\n\"\nexport A=\\ z\n"

def plainFiles : Files :=
  .ofEntries [([".env".toList], .file (Files.bytesOf plainText))]

theorem taken_as_read_iff_plain :
    plainFiles.readBytes ".env" = .ok (Files.bytesOf plainText) ∧
    Text.decodeUtf8 (Files.bytesOf plainText) = .ok plainText.toList ∧ '$' ∉ plainText.toList ∧
    load (read {}) plainFiles ".env" {}
      = (.ofList [("A", " z"), ("B", "\ue001 #\n")], .ok ⟨".env", ["A", "B"], []⟩) ∧
    mark ∉ "\ue001 #\n".toList ∧
    ∀ env after report, load (read {}) plainFiles ".env" env = (after, .ok report) →
      "B" ∈ report.applied → after.find? "B" = some "\ue001 #\n" := by
  have hread : plainFiles.readBytes ".env" = .ok (Files.bytesOf plainText) := by decide +kernel
  have htext := Text.decodeUtf8_bytesOf plainText
  have hdollar : '$' ∉ plainText.toList := by decide
  have hload : load (read {}) plainFiles ".env" {}
      = (.ofList [("A", " z"), ("B", "\ue001 #\n")], .ok ⟨".env", ["A", "B"], []⟩) := by
    decide +kernel
  have hentries : (read {} plainText.toList).entries
      = [("A", ['x'])] ++ ("B", "\ue001 #\n".toList) :: [("A", " z".toList)] := by
    decide +kernel
  have hlater : ∀ entry ∈ [("A", " z".toList)], entry.1 ≠ "B" := by decide
  have hmark : mark ∉ "\ue001 #\n".toList := by decide
  obtain ⟨-, htaken⟩ := taken_as_read_iff hread htext hdollar hload
  exact ⟨hread, htext, hdollar, hload, hmark, (htaken _ _ _ _ hentries hlater).2 hmark⟩

/-- A character that looks like a mark, in single quotes. -/
def lookalikeFiles : Files :=
  .ofEntries [([".env".toList], .file (Files.bytesOf "A='\ue000HOME'\n"))]

def homeEnv : Env :=
  .ofList [("HOME", "/virtual")]

theorem lookalike_replaced :
    '$' ∉ "A='\ue000HOME'\n".toList ∧
    read {} "A='\ue000HOME'\n".toList = ⟨[("A", "\ue000HOME".toList)], none⟩ ∧
    load (read {}) lookalikeFiles ".env" homeEnv
      = (.ofList [("A", "/virtual"), ("HOME", "/virtual")], .ok ⟨".env", ["A"], []⟩) := by
  decide +kernel

/-! ## Marks in faults -/

namespace EnvFile

theorem line_of_expand_error {lookup : List Char → List Char} {value : List Char}
    {fault : LineFault} (h : expand lookup value = .error fault) : fault.line = unmark value := by
  rw [expand] at h
  split at h
  · cases h
  · rw [← Except.error.inj h]

theorem exists_entry_of_expandEntries_error {env : Env} {earlier : Dict String}
    {entries : List (String × List Char)} {fault : LineFault}
    (h : expandEntries env earlier entries = .error fault) :
    ∃ entry ∈ entries, fault.line = unmark entry.2 := by
  induction entries generalizing earlier with
  | nil => exact nomatch h
  | cons entry rest ih =>
    obtain ⟨key, marked⟩ := entry
    rcases bind_eq_error.1 h with hvalue | ⟨value, -, hrest⟩
    · exact ⟨(key, marked), List.mem_cons_self, line_of_expand_error hvalue⟩
    · obtain ⟨entry, hentry, hline⟩ := ih hrest
      exact ⟨entry, List.mem_cons_of_mem _ hentry, hline⟩

/-- A fault in a line is found in expanding an entry, or else in reading. -/
theorem fault_of_definitions_error {reader : List Char → Reading} {env : Env} {text : List Char}
    {fault : LineFault} (h : definitions reader env text = .error fault) :
    (∃ entry ∈ (reader (markAll text)).entries, fault.line = unmark entry.2) ∨
      (reader (markAll text)).fault = some fault := by
  rcases bind_eq_error.1 h with hexpand | ⟨values, -, hrest⟩
  · exact .inl (exists_entry_of_expandEntries_error hexpand)
  · split at hrest
    · next found hfound => exact .inr (Except.error.inj hrest ▸ hfound)
    · exact nomatch hrest

theorem definitions_of_load_error {reader : List Char → Reading} {files : Files} {path : String}
    {bytes : List UInt8} {text : List Char} (hbytes : files.readBytes path = .ok bytes)
    (htext : Text.decodeUtf8 bytes = .ok text) {env : Env} {fault : LineFault}
    (h : (load reader files path env).2 = .error (.envFile path (.line fault))) :
    definitions reader env text = .error fault := by
  rw [load, hbytes] at h
  dsimp only at h
  split at h
  · next found hfound =>
    rw [Except.error.inj h, definitionsOf, htext] at hfound
    dsimp only at hfound
    split at hfound
    · exact nomatch Except.error.inj hfound
    · split at hfound
      · next found hdefinitions => simpa [hdefinitions] using hfound
      · exact nomatch hfound
  · exact nomatch h

end EnvFile

open EnvFile

/-- Where neither the file nor the environment has a mark, no value has one after the load. A fault
in a line that is found in expanding a value shows no mark either. One that is found in reading
shows a stretch of the file with the marks in it, so that it shows one if and only if a substitution
starts there. -/
theorem marks_shown_iff {files : Files} {path : String} {bytes : List UInt8} {text : List Char}
    (hbytes : files.readBytes path = .ok bytes) (htext : Text.decodeUtf8 bytes = .ok text)
    (hmark : mark ∉ text) {env : Env} (henv : Unmarked env) (process : Env) :
    (∀ after report, load (read process) files path env = (after, .ok report) → Unmarked after) ∧
    ∀ fault, (load (read process) files path env).2 = .error (.envFile path (.line fault)) →
      (∃ entry ∈ (read process (markAll text)).entries,
        fault.line = unmark entry.2 ∧ mark ∉ fault.line) ∨
      ∃ before line rest, text = before ++ line ++ rest ∧
        (read process (markAll text)).fault = some fault ∧
        fault.line = markFrom (MarkState.start.after before) line ∧ unmark fault.line = line ∧
        (mark ∈ fault.line ↔ ∃ front more, line = front ++ '$' :: more ∧
          (MarkState.start.after (before ++ front)).isOpen = true) := by
  refine ⟨fun after report hload => ?_, fun fault hload => ?_⟩
  · obtain ⟨bytes', text', values, _, _, _, _, hvalues, happly⟩ := load_eq_ok_iff.1 hload
    have hunmarked := unmarked_of_expandEntries henv hvalues unmarked_empty
    have hafter := unmarked_apply henv hunmarked path
    rwa [happly] at hafter
  · have hdefinitions := definitions_of_load_error hbytes htext hload
    rcases fault_of_definitions_error hdefinitions with ⟨entry, hentry, hline⟩ | hfault
    · exact .inl ⟨entry, hentry, hline, hline ▸ not_mem_unmark entry.2⟩
    · obtain ⟨before, line, rest, rfl, hline⟩ := exists_of_infix_markFrom (infix_of_fault hfault)
      have hnot : mark ∉ line := fun h => hmark (by simp [h])
      refine .inr ⟨before, line, rest, rfl, hfault, hline, hline ▸ unmark_markFrom hnot, ?_⟩
      simp only [hline, mem_markFrom_iff hnot, MarkState.after_append]

/-- An env file with names to replace, and one that has a line without an equals sign and a dollar
sign in quotes as well. -/
def neatText : String :=
  "A=${HOME}/a\nC=$A\n"

def clumsyText : String :=
  "A=${HOME}\nB 'c$'\nC=$A\n"

def clumsyFiles : Files :=
  .ofEntries [([".env".toList], .file (Files.bytesOf clumsyText)),
    (["neat".toList], .file (Files.bytesOf neatText))]

def neatAfter : Env :=
  .ofList [("A", "/virtual/a"), ("C", "/virtual/a"), ("HOME", "/virtual")]

theorem unmarked_homeEnv : Unmarked homeEnv := by
  have hvalue : mark ∉ "/virtual".toList := by decide
  exact unmarked_empty.insert "HOME" hvalue

theorem marks_shown_iff_clumsy :
    (load (read {}) clumsyFiles "neat" homeEnv = (neatAfter, .ok ⟨"neat", ["A", "C"], []⟩) ∧
      Unmarked neatAfter) ∧
    clumsyFiles.readBytes ".env" = .ok (Files.bytesOf clumsyText) ∧
    Text.decodeUtf8 (Files.bytesOf clumsyText) = .ok clumsyText.toList ∧
    mark ∉ clumsyText.toList ∧ Unmarked homeEnv ∧
    (load (read {}) clumsyFiles ".env" homeEnv).2
      = .error (.envFile ".env" (.line ⟨"B 'c$'".toList, 2⟩)) ∧
    ((∃ entry ∈ (read {} (markAll clumsyText.toList)).entries,
        "B 'c$'".toList = unmark entry.2 ∧ mark ∉ "B 'c$'".toList) ∨
      ∃ before line rest, clumsyText.toList = before ++ line ++ rest ∧
        (read {} (markAll clumsyText.toList)).fault = some ⟨"B 'c$'".toList, 2⟩ ∧
        "B 'c$'".toList = markFrom (MarkState.start.after before) line ∧
        unmark "B 'c$'".toList = line ∧
        (mark ∈ "B 'c$'".toList ↔ ∃ front more, line = front ++ '$' :: more ∧
          (MarkState.start.after (before ++ front)).isOpen = true)) := by
  have hread : clumsyFiles.readBytes ".env" = .ok (Files.bytesOf clumsyText) := by decide +kernel
  have htext := Text.decodeUtf8_bytesOf clumsyText
  have hmark : mark ∉ clumsyText.toList := by decide
  have hload : (load (read {}) clumsyFiles ".env" homeEnv).2
      = .error (.envFile ".env" (.line ⟨"B 'c$'".toList, 2⟩)) := by decide +kernel
  have hneat : load (read {}) clumsyFiles "neat" homeEnv
      = (neatAfter, .ok ⟨"neat", ["A", "C"], []⟩) := by decide +kernel
  have hunmarked := (marks_shown_iff (by decide +kernel) (Text.decodeUtf8_bytesOf neatText)
    (by decide) unmarked_homeEnv {}).1 _ _ hneat
  exact ⟨⟨hneat, hunmarked⟩, hread, htext, hmark, unmarked_homeEnv, hload,
    (marks_shown_iff hread htext hmark unmarked_homeEnv {}).2 _ hload⟩

/-- A name in a value that goes on behind a space. -/
def spacedFiles : Files :=
  .ofEntries [([".env".toList], .file (Files.bytesOf "A=$B c\n"))]

theorem mark_shown :
    mark ∉ "A=$B c\n".toList ∧ Unmarked homeEnv ∧
    load (read {}) spacedFiles ".env" homeEnv
      = (homeEnv, .error (.envFile ".env" (.line ⟨"\ue000B c".toList, 3⟩))) ∧
    mark ∈ "\ue000B c".toList := by
  have hmark : mark ∉ "A=$B c\n".toList := by decide
  exact ⟨hmark, unmarked_homeEnv, by decide +kernel, by decide⟩

end Dotpath
