import Dotpath.Config.Action
import Dotpath.Proofs.Config.Edits
import Dotpath.Proofs.Files

/-!
# Edits of a file

The text of a file is read, edited and checked before anything is written. So an edit that fails
earlier leaves no trace, and one that succeeds leaves a file that loads. A write that fails may have
made folders. A name such as `a/..` then leads to one, where it had led nowhere. Or it has emptied
the file, and the device had no room for all of the new text.

Results:
1. `persist_ends`: all that an edit can come to.
2. `loads_persist`: an edit that does not fail in writing keeps a file that loads.
3. `persist_keeps_loadable`: what one edit does to the files, and what a run of edits keeps.
4. `unloadable_after_failed_write`: folders made by a write that failed can stand in the way.
-/

namespace Dotpath

/-- The fault is one of writing. -/
def ConfigError.isWrite : ConfigError → Bool
  | write _ _ => true
  | _ => false

namespace Config

/-- The file loads. One that is not there does, as an empty configuration. -/
def Loads (files : Files) (path : String) : Prop :=
  ∃ config, load files path = .ok config

/-- The locations of the folders that a file's name leads through. -/
def wayTo (path : String) : List Location :=
  Files.passed [] (FileName.segments (FileName.parent path.toList))

/-- The file at `location` holds the bytes. All other entries are as they were, but for new folders
on the way. -/
structure Replaced (before after : Files) (path : String) (bytes : List UInt8)
    (location : Location) : Prop where
  trouble : after.trouble = before.trouble
  leads : after.locate path.toList = .ok location
  written : after.find? location = some (.file bytes)
  others : ∀ other, other ≠ location → after.find? other = before.find? other ∨
    before.find? other = none ∧ after.find? other = some .folder ∧ other ∈ wayTo path

/-- The text that an edit has for the file. -/
def IsEdited (files : Files) (path place raw text : String) : Prop :=
  ∃ content, readOptional files path = .ok content ∧
    setInDocument content place raw path = .ok text

/-! ## One edit -/

/-- How an edit of a file can end, and the files that it then leaves. -/
inductive Ends (files : Files) (path place raw : String) :
    Files × Except ConfigError Unit → Prop where
  | refused (fault : ConfigError) : Ends files path place raw (files, .error fault)
  /-- Folders have been made, and no file has been opened. -/
  | unopened {made : Files} (name : String) (fault : FileFault)
      (hmade : Files.FoldersAdded files made (wayTo path)) :
      Ends files path place raw (made, .error (.write name fault))
  /-- The file has been emptied, and the device had room for a part of the new text. -/
  | cutShort {after : Files} {text : String} {room : Nat} {fault : DeviceFault}
      {location : Location} (hedited : IsEdited files path place raw text)
      (htrouble : files.trouble = some (.full room fault))
      (hroom : room < (Files.bytesOf text).length)
      (hreplaced : Replaced files after path ((Files.bytesOf text).take room) location) :
      Ends files path place raw (after, .error (.write path (.device fault)))
  | written {after : Files} {text : String} {location : Location}
      (hedited : IsEdited files path place raw text)
      (hreplaced : Replaced files after path (Files.bytesOf text) location)
      (hread : after.readText path = .ok text) : Ends files path place raw (after, .ok ())

theorem foldersAdded_makeWay (files : Files) (path : String) :
    Files.FoldersAdded files (makeWay files path).1 (wayTo path) := by
  unfold makeWay
  dsimp only
  split
  · exact .refl files _
  · exact Files.foldersAdded_createFolders files _

theorem replaced_of_writeBytes {files made after : Files} {path : String} {bytes : List UInt8}
    (hmade : Files.FoldersAdded files made (wayTo path))
    (h : made.writeBytes path bytes = .ok after) :
    ∃ location, Replaced files after path bytes location := by
  obtain ⟨location, hleads, hwritten, hothers⟩ := Files.find?_of_writeBytes h
  have htrouble := (Files.trouble_of_writeBytes h).trans hmade.trouble
  refine ⟨location, htrouble, hleads, hwritten, fun other hother => ?_⟩
  rw [hothers other hother]
  exact hmade.entries other

/-- Folders come first. Then the file is written, or nothing more is done. -/
theorem writeFile_ends {files : Files} {path place raw text : String}
    (hedited : IsEdited files path place raw text) :
    Ends files path place raw (writeFile files path text) := by
  have hway := foldersAdded_makeWay files path
  unfold writeFile
  cases hmade : makeWay files path with
  | mk made done =>
    rw [hmade] at hway
    cases done with
    | error fault => exact .unopened _ fault hway
    | ok =>
      dsimp only
      rcases made.write_cases path (Files.bytesOf text) with
        ⟨fault, hwrite⟩ | ⟨after, hbytes, hwrite⟩ | ⟨room, fault, after, hfull, hroom, hbytes, hwrite⟩
      · rw [hwrite]
        exact .unopened path fault hway
      · rw [hwrite]
        obtain ⟨location, hreplaced⟩ := replaced_of_writeBytes hway hbytes
        exact .written hedited hreplaced (Files.readText_of_writeBytes hbytes)
      · rw [hwrite]
        obtain ⟨location, hreplaced⟩ := replaced_of_writeBytes hway hbytes
        exact .cutShort hedited (hway.trouble.symm.trans hfull) hroom hreplaced

/-- An edit that does not get as far as writing leaves the files alone. -/
theorem persist_ends (files : Files) (path place raw : String) :
    Ends files path place raw (persist files path place raw) := by
  unfold persist
  split
  · next fault _ => exact .refused fault
  · next text htext => exact writeFile_ends (bind_eq_ok.1 htext)

theorem load_of_readText {files : Files} {path text : String}
    (h : files.readText path = .ok text) : load files path = ofText path text := by
  simp [load, readOptional, h, bind, Except.bind]

theorem load_congr {before after : Files} (h : after.find? = before.find?) (path : String) :
    load after path = load before path := by
  simp only [load, readOptional, Files.readText_congr h]

/-- What has been checked before it was written loads afterwards. -/
theorem loads_of_isEdited {files after : Files} {path place raw text : String}
    (hedited : IsEdited files path place raw text) (hread : after.readText path = .ok text) :
    Loads after path := by
  obtain ⟨content, -, hset⟩ := hedited
  obtain ⟨-, -, -, hloads⟩ := setInDocument_eq_ok.1 hset
  rwa [Loads, load_of_readText hread]

theorem loads_persist {files : Files} {path place raw : String} (h : Loads files path)
    (hwrite : ∀ fault, (persist files path place raw).2 = .error fault → fault.isWrite = true →
      Loads (persist files path place raw).1 path) :
    Loads (persist files path place raw).1 path := by
  have hends := persist_ends files path place raw
  generalize persist files path place raw = done at *
  cases hends with
  | refused fault => exact h
  | unopened name fault => exact hwrite _ rfl rfl
  | cutShort => exact hwrite _ rfl rfl
  | written hedited _ hread => exact loads_of_isEdited hedited hread

end Config

/-! ## Runs of edits -/

open Config

/-- An edit, and the trouble that the device is in when it is made. -/
structure Attempt where
  edit : Edit
  trouble : Option Trouble

namespace Attempt

/-- Makes the edit of the file `path`. -/
def persist (path : String) (files : Files) (attempt : Attempt) :
    Files × Except ConfigError Unit :=
  Config.persist { files with trouble := attempt.trouble } path attempt.edit.place attempt.edit.raw

/-- The files after a run of attempts on one file, whether they succeed or not. -/
def persistAll (path : String) (files : Files) (attempts : List Attempt) : Files :=
  attempts.foldl (fun files attempt => (attempt.persist path files).1) files

/-- If the attempt fails in writing, the file loads all the same. -/
def KeepsLoadable (path : String) (files : Files) (attempt : Attempt) : Prop :=
  ∀ fault, (attempt.persist path files).2 = .error fault → fault.isWrite = true →
    Loads (attempt.persist path files).1 path

/-- The file loads after all attempts of a run that fail in writing. -/
def AllKeepLoadable (path : String) (files : Files) : List Attempt → Prop
  | [] => True
  | attempt :: rest =>
    attempt.KeepsLoadable path files ∧ AllKeepLoadable path (attempt.persist path files).1 rest

theorem loads_persist {path : String} {files : Files} {attempt : Attempt}
    (h : Loads files path) (hkeeps : attempt.KeepsLoadable path files) :
    Loads (attempt.persist path files).1 path := by
  -- What troubles the device is no concern of reading.
  have hfind : Files.find? { files with trouble := attempt.trouble } = files.find? := rfl
  refine Config.loads_persist ?_ hkeeps
  rwa [Loads, load_congr hfind]

theorem loads_persistAll {path : String} {files : Files} {attempts : List Attempt}
    (h : Loads files path) (hkeep : AllKeepLoadable path files attempts) :
    Loads (persistAll path files attempts) path := by
  induction attempts generalizing files with
  | nil => exact h
  | cons attempt rest ih =>
    obtain ⟨hattempt, hrest⟩ := hkeep
    exact ih (loads_persist h hattempt) hrest

end Attempt

/-- Edits that fail leave no trace, unless they fail in writing, and edits that succeed leave a file
that loads. An edit that fails in writing makes at most folders on the way to the file, or it leaves
the file with a part of the edited text where the device had no room for all of it. One that
succeeds gives the file its edited text, changes no other, and makes at most such folders. So a file
that loads, or is not there, loads after every edit of a run that does not itself fail in writing,
as long as it also does after the earlier ones that did. The edits of a configuration are those of
its file. -/
theorem persist_keeps_loadable (path : String) :
    (∀ files place raw after fault, persist files path place raw = (after, .error fault) →
      fault.isWrite = false → after = files) ∧
    (∀ files place raw after fault, persist files path place raw = (after, .error fault) →
      Files.FoldersAdded files after (wayTo path) ∨
      ∃ text room device location, IsEdited files path place raw text ∧
        files.trouble = some (.full room device) ∧ room < (Files.bytesOf text).length ∧
        fault = .write path (.device device) ∧
        Replaced files after path ((Files.bytesOf text).take room) location) ∧
    (∀ files place raw after, persist files path place raw = (after, .ok ()) →
      Loads after path ∧ ∃ text location, IsEdited files path place raw text ∧
        Replaced files after path (Files.bytesOf text) location) ∧
    (∀ files attempts (attempt : Attempt), Loads files path →
      Attempt.AllKeepLoadable path files attempts →
      (∀ fault, (attempt.persist path (Attempt.persistAll path files attempts)).2 = .error fault →
        fault.isWrite = false) →
      Loads (attempt.persist path (Attempt.persistAll path files attempts)).1 path) ∧
    ∀ config : Config, config.path = path → ∀ files place raw,
      config.handle files (.set place raw)
        = ((persist files path place raw).1,
          (persist files path place raw).2.map fun () => .valueSet place raw) := by
  refine ⟨fun files place raw after fault h hfault => ?_,
    fun files place raw after fault h => ?_, fun files place raw after h => ?_,
    fun files attempts attempt hloads hkeep hattempt => ?_, ?_⟩
  · cases h ▸ persist_ends files path place raw with
    | refused => rfl
    | unopened => exact nomatch hfault
    | cutShort => exact nomatch hfault
  · cases h ▸ persist_ends files path place raw with
    | refused => exact .inl (.refl _ _)
    | unopened name fault hmade => exact .inl hmade
    | cutShort hedited htrouble hroom hreplaced =>
      exact .inr ⟨_, _, _, _, hedited, htrouble, hroom, rfl, hreplaced⟩
  · cases h ▸ persist_ends files path place raw with
    | written hedited hreplaced hread =>
      exact ⟨loads_of_isEdited hedited hread, _, _, hedited, hreplaced⟩
  · refine Attempt.loads_persist (Attempt.loads_persistAll hloads hkeep) fun fault hfault hwrite => ?_
    exact absurd hwrite (by simp [hattempt fault hfault])
  · rintro config rfl files place raw
    rfl

def appPath : String :=
  "conf/app.yaml"

/-- A folder with a file in it. -/
def appFiles (text : String) (trouble : Option Trouble) : Files where
  entries := [(["conf".toList, "app.yaml".toList], .file (Files.bytesOf text)),
    (["conf".toList], .folder)]
  trouble := trouble

def outOfRoom (room : Nat) : Option Trouble :=
  some (.full room .noSpace)

def firstAttempt : Attempt :=
  ⟨⟨"a", "1"⟩, none⟩

def secondAttempt : Attempt :=
  ⟨⟨"b", "2"⟩, outOfRoom 5⟩

def lastAttempt : Attempt :=
  ⟨⟨"[0]", "x"⟩, none⟩

/-- The first edit makes the folder and the file. Then the device runs out of room for a second
line: after one byte, which is no mapping, or behind the first line, which still loads. The last
edit would make a sequence of the file. -/
theorem persist_keeps_loadable_app :
    persist {} appPath "a" "1" = (appFiles "a: 1\n" none, .ok ()) ∧
    (∃ text location, IsEdited {} appPath "a" "1" text ∧
      Replaced {} (appFiles "a: 1\n" none) appPath (Files.bytesOf text) location) ∧
    persist (appFiles "a: 1\n" (outOfRoom 1)) appPath "b" "2"
      = (appFiles "a" (outOfRoom 1), .error (.write appPath (.device .noSpace))) ∧
    (∃ text location, IsEdited (appFiles "a: 1\n" (outOfRoom 1)) appPath "b" "2" text ∧
      Replaced (appFiles "a: 1\n" (outOfRoom 1)) (appFiles "a" (outOfRoom 1)) appPath
        ((Files.bytesOf text).take 1) location) ∧
    load (appFiles "a" (outOfRoom 1)) appPath = .error (.notAMapping appPath .string) ∧
    Attempt.AllKeepLoadable appPath {} [firstAttempt, secondAttempt] ∧
    lastAttempt.persist appPath (Attempt.persistAll appPath {} [firstAttempt, secondAttempt])
      = (appFiles "a: 1\n" none, .error (.notAMapping appPath .sequence)) ∧
    Loads (appFiles "a: 1\n" none) appPath := by
  obtain ⟨-, hfailed, hwritten, hruns, -⟩ := persist_keeps_loadable appPath
  have hmade : persist {} appPath "a" "1" = (appFiles "a: 1\n" none, .ok ()) := by decide +kernel
  have hcut : persist (appFiles "a: 1\n" (outOfRoom 1)) appPath "b" "2"
      = (appFiles "a" (outOfRoom 1), .error (.write appPath (.device .noSpace))) := by
    decide +kernel
  have hfirst : firstAttempt.persist appPath {} = (appFiles "a: 1\n" none, .ok ()) := hmade
  have hsecond : secondAttempt.persist appPath (appFiles "a: 1\n" none)
      = (appFiles "a: 1\n" (outOfRoom 5), .error (.write appPath (.device .noSpace))) := by
    decide +kernel
  have hlast : lastAttempt.persist appPath (appFiles "a: 1\n" (outOfRoom 5))
      = (appFiles "a: 1\n" none, .error (.notAMapping appPath .sequence)) := by decide +kernel
  have hrun : Attempt.persistAll appPath {} [firstAttempt, secondAttempt]
      = appFiles "a: 1\n" (outOfRoom 5) := by
    rw [Attempt.persistAll, List.foldl_cons, List.foldl_cons, List.foldl_nil, hfirst, hsecond]
  obtain ⟨hloads, hmadeFile⟩ := hwritten _ _ _ _ hmade
  have hkeep : Attempt.AllKeepLoadable appPath {} [firstAttempt, secondAttempt] := by
    refine ⟨fun fault hfault => ?_, fun fault _ _ => ?_, trivial⟩
    · rw [hfirst] at hfault
      exact nomatch hfault
    · rw [hfirst, hsecond]
      exact hloads
  have hkept := hruns {} _ lastAttempt ⟨_, rfl⟩ hkeep
  rw [hrun, hlast] at hkept
  have hcutFile : ¬ Files.FoldersAdded (appFiles "a: 1\n" (outOfRoom 1))
      (appFiles "a" (outOfRoom 1)) (wayTo appPath) := by
    intro h
    have hfile := h.entries ["conf".toList, "app.yaml".toList]
    revert hfile
    decide +kernel
  obtain hadded | ⟨text, room, _, location, hedited, htrouble, -, -, hreplaced⟩ :=
    hfailed _ _ _ _ _ hcut
  · exact absurd hadded hcutFile
  · cases htrouble
    refine ⟨hmade, hmadeFile, hcut, ⟨text, location, hedited, hreplaced⟩, by decide +kernel, hkeep,
      by rw [hrun, hlast], hkept fun fault hfault => ?_⟩
    obtain rfl := Except.error.inj hfault
    rfl

/-- The way to `a/..` makes a folder of `a`, and there the name leads to the root. The second edit
does not fail in writing, and still the file that was not there does not load. -/
theorem unloadable_after_failed_write :
    load {} "a/.." = .ok (.empty "a/..") ∧
    persist {} "a/.." "x" "1"
      = (.ofEntries [(["a".toList], .folder)], .error (.write "a/.." .isAFolder)) ∧
    persist (.ofEntries [(["a".toList], .folder)]) "a/.." "x" "1"
      = (.ofEntries [(["a".toList], .folder)], .error (.read "a/.." .isAFolder)) ∧
    (ConfigError.read "a/.." .isAFolder).isWrite = false ∧
    load (.ofEntries [(["a".toList], .folder)]) "a/.." = .error (.read "a/.." .isAFolder) := by
  decide +kernel

end Dotpath
