import Dotpath.Proofs.Text.Utf8

/-!
# What writing a file changes

Making folders adds folders at locations on their way that had no entry. Writing a file changes the
entry that its name leads to, which was no folder, so that the name leads there still. A device that
runs out of room leaves the file with a part of its new contents.

Results:
1. `foldersAdded_makeFolders`: folders are made on the way and nowhere else, whatever the outcome.
2. `writeBytes_eq_ok`: when a file can be written, and what comes of it.
3. `readText_of_writeBytes`: what was written is read.
4. `write_cases`: all that a write can come to.
-/

namespace Dotpath.Files

/-! ## Entries -/

theorem lookup_filter_ne {entries : List (Location × FileEntry)} {location other : Location}
    (h : other ≠ location) :
    (entries.filter (·.1 ≠ location)).lookup other = entries.lookup other := by
  induction entries with
  | nil => rfl
  | cons entry rest ih =>
    rw [List.lookup_cons]
    by_cases hentry : entry.1 = location
    · have hne : (other == entry.1) = false := by
        rw [hentry]
        exact beq_false_of_ne h
      rw [List.filter_cons_of_neg (by simpa using hentry), ih, hne]
    · rw [List.filter_cons_of_pos (by simpa using hentry), List.lookup_cons, ih]

/-- Every entry but the root's can be given. -/
theorem find?_put {files : Files} {location : Location} (h : location ≠ []) (entry : FileEntry)
    (other : Location) :
    (files.put location entry).find? other
      = if other = location then some entry else files.find? other := by
  by_cases hother : other = location
  · subst hother
    rw [if_pos rfl, find?, if_neg (by simpa using h), put, List.lookup_cons_self]
  · have hne : (other == location) = false := beq_false_of_ne hother
    rw [if_neg hother, find?, find?, put, List.lookup_cons, hne, lookup_filter_ne hother]

theorem ne_root_of_find? {files : Files} {location : Location}
    (h : files.find? location ≠ some .folder) : location ≠ [] := by
  rintro rfl
  exact h rfl

/-! ## Folders on the way -/

/-- The locations that segments lead through from `reached`. -/
def passed (reached : Location) : List (List Char) → List Location
  | [] => []
  | segment :: rest => enter reached segment :: passed (enter reached segment) rest

/-- All that `after` has besides `before` is new folders, at some of the given locations. -/
structure FoldersAdded (before after : Files) (locations : List Location) : Prop where
  trouble : after.trouble = before.trouble
  entries : ∀ location, after.find? location = before.find? location ∨
    before.find? location = none ∧ after.find? location = some .folder ∧ location ∈ locations

theorem FoldersAdded.refl (files : Files) (locations : List Location) :
    FoldersAdded files files locations :=
  ⟨rfl, fun _ => .inl rfl⟩

theorem FoldersAdded.cons {before after : Files} {locations : List Location} (location : Location)
    (h : FoldersAdded before after locations) :
    FoldersAdded before after (location :: locations) := by
  refine ⟨h.trouble, fun other => (h.entries other).imp_right ?_⟩
  rintro ⟨hbefore, hafter, hmem⟩
  exact ⟨hbefore, hafter, List.mem_cons_of_mem location hmem⟩

/-- A folder where there was nothing comes first. -/
theorem FoldersAdded.put {before after : Files} {location : Location} {locations : List Location}
    (hnone : before.find? location = none)
    (h : FoldersAdded (before.put location .folder) after locations) :
    FoldersAdded before after (location :: locations) := by
  have hfolder : before.find? location ≠ some .folder := by simp [hnone]
  have hroot := ne_root_of_find? hfolder
  refine ⟨h.trouble, fun other => ?_⟩
  have hother := h.entries other
  rw [find?_put hroot] at hother
  by_cases heq : other = location
  · subst heq
    rw [if_pos rfl] at hother
    refine .inr ⟨hnone, ?_, List.mem_cons_self⟩
    rcases hother with hother | ⟨hother, -⟩
    · exact hother
    · exact nomatch hother
  · rw [if_neg heq] at hother
    exact hother.imp_right fun ⟨hbefore, hafter, hmem⟩ =>
      ⟨hbefore, hafter, List.mem_cons_of_mem location hmem⟩

theorem foldersAdded_makeFolders (files : Files) (reached : Location)
    (segments : List (List Char)) :
    FoldersAdded files (files.makeFolders reached segments).1 (passed reached segments) := by
  induction segments generalizing files reached with
  | nil => exact .refl files _
  | cons segment rest ih =>
    rw [makeFolders]
    split
    · exact (ih files _).cons _
    · exact .refl files _
    · next hnone =>
      split
      · exact .refl files _
      · split
        · exact .refl files _
        · exact .put hnone (ih _ _)

theorem foldersAdded_createFolders (files : Files) (name : List Char) :
    FoldersAdded files (files.createFolders name).1 (passed [] (FileName.segments name)) := by
  unfold createFolders
  split
  · exact .refl files _
  · exact foldersAdded_makeFolders files [] _

/-! ## Writing and reading -/

/-- A way through folders stays one as long as they stay folders. -/
theorem walk_of_folders {before after : Files}
    (h : ∀ location, before.find? location = some .folder → after.find? location = some .folder)
    {reached location : Location} {segments : List (List Char)}
    (hwalk : before.walk reached segments = .ok location) :
    after.walk reached segments = .ok location := by
  induction segments generalizing reached with
  | nil => exact hwalk
  | cons segment rest ih =>
    rw [walk] at hwalk ⊢
    split at hwalk
    · exact nomatch hwalk
    · exact nomatch hwalk
    · next hfolder =>
      rw [h _ hfolder]
      dsimp only
      split at hwalk
      · exact nomatch hwalk
      · next hshort =>
        rw [if_neg hshort]
        exact ih hwalk

theorem locate_of_folders {before after : Files}
    (h : ∀ location, before.find? location = some .folder → after.find? location = some .folder)
    {name : List Char} {location : Location} (hlocate : before.locate name = .ok location) :
    after.locate name = .ok location := by
  unfold locate at hlocate ⊢
  split at hlocate
  · exact nomatch hlocate
  · exact walk_of_folders h hlocate

theorem writeBytes_eq_ok {files after : Files} {name : String} {bytes : List UInt8} :
    files.writeBytes name bytes = .ok after ↔
      ∃ location, files.locate name.toList = .ok location ∧
        FileName.namesFolder name.toList = false ∧ files.find? location ≠ some .folder ∧
        files.shut? location = none ∧ after = files.put location (.file bytes) := by
  unfold writeBytes
  cases files.locate name.toList with
  | error fault => simp [bind, Except.bind]
  | ok location =>
    cases FileName.namesFolder name.toList with
    | true => simp [bind, Except.bind]
    | false =>
      simp only [bind, Except.bind, Bool.false_eq_true, ite_false]
      split
      · next hfolder => simp [hfolder]
      · next hfolder =>
        cases hshut : files.shut? location with
        | some fault => simp [hshut]
        | none =>
          constructor
          · intro h
            exact ⟨location, rfl, trivial, hfolder, hshut, (Except.ok.inj h).symm⟩
          · rintro ⟨_, ⟨⟩, -, -, -, rfl⟩
            rfl

theorem trouble_of_writeBytes {files after : Files} {name : String} {bytes : List UInt8}
    (h : files.writeBytes name bytes = .ok after) : after.trouble = files.trouble := by
  obtain ⟨location, -, -, -, -, rfl⟩ := writeBytes_eq_ok.1 h
  rfl

/-- The written file is where its name leads, and all else is as it was. -/
theorem find?_of_writeBytes {files after : Files} {name : String} {bytes : List UInt8}
    (h : files.writeBytes name bytes = .ok after) :
    ∃ location, after.locate name.toList = .ok location ∧
      after.find? location = some (.file bytes) ∧
      ∀ other, other ≠ location → after.find? other = files.find? other := by
  obtain ⟨location, hlocate, -, hfolder, -, rfl⟩ := writeBytes_eq_ok.1 h
  have hfind := @find?_put files _ (ne_root_of_find? hfolder) (.file bytes)
  refine ⟨location, ?_, by rw [hfind, if_pos rfl], fun other hother => by rw [hfind, if_neg hother]⟩
  refine locate_of_folders (fun other hother => ?_) hlocate
  have hne : other ≠ location := fun heq => hfolder (heq ▸ hother)
  rw [hfind, if_neg hne, hother]

theorem readText_of_writeBytes {files after : Files} {name text : String}
    (h : files.writeBytes name (bytesOf text) = .ok after) : after.readText name = .ok text := by
  obtain ⟨location, hlocate, hfile, -⟩ := find?_of_writeBytes h
  obtain ⟨-, -, hname, -⟩ := writeBytes_eq_ok.1 h
  have hbytes : after.readBytes name = .ok (bytesOf text) := by
    simp [readBytes, hlocate, hfile, hname, bind, Except.bind]
  simp [readText, hbytes, bind, Except.bind, Text.decodeUtf8_bytesOf]

theorem walk_congr {before after : Files} (h : after.find? = before.find?) (reached : Location)
    (segments : List (List Char)) :
    after.walk reached segments = before.walk reached segments := by
  induction segments generalizing reached with
  | nil => rfl
  | cons segment rest ih => simp only [walk, h, ih]

theorem readText_congr {before after : Files} (h : after.find? = before.find?) (name : String) :
    after.readText name = before.readText name := by
  simp only [readText, readBytes, locate, walk_congr h, h]

/-- The device takes all, or the part that it has room for. -/
theorem taken_cases (files : Files) (bytes : List UInt8) :
    files.taken bytes = (bytes, .ok ()) ∨
      ∃ room fault, files.trouble = some (.full room fault) ∧ room < bytes.length ∧
        files.taken bytes = (bytes.take room, .error (.device fault)) := by
  unfold taken
  split
  · next room fault htrouble =>
    split
    · exact .inl rfl
    · next hroom => exact .inr ⟨room, fault, htrouble, Nat.lt_of_not_le hroom, rfl⟩
  · exact .inl rfl

/-- A write changes nothing, or gives the file all of its new contents, or is cut short. -/
theorem write_cases (files : Files) (name : String) (bytes : List UInt8) :
    (∃ fault, files.write name bytes = (files, .error fault)) ∨
      (∃ after, files.writeBytes name bytes = .ok after ∧
        files.write name bytes = (after, .ok ())) ∨
      ∃ room fault after, files.trouble = some (.full room fault) ∧ room < bytes.length ∧
        files.writeBytes name (bytes.take room) = .ok after ∧
        files.write name bytes = (after, .error (.device fault)) := by
  unfold write
  rcases taken_cases files bytes with htaken | ⟨room, fault, htrouble, hroom, htaken⟩
  · rw [htaken]
    cases hwrite : files.writeBytes name bytes with
    | error fault => exact .inl ⟨fault, by simp only [hwrite]⟩
    | ok after => exact .inr (.inl ⟨after, rfl, by simp only [hwrite]⟩)
  · rw [htaken]
    cases hwrite : files.writeBytes name (bytes.take room) with
    | error fault => exact .inl ⟨fault, by simp only [hwrite]⟩
    | ok after =>
      exact .inr (.inr ⟨room, fault, after, htrouble, hroom, hwrite, by simp only [hwrite]⟩)

end Dotpath.Files
