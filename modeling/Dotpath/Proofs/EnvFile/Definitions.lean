import Dotpath.EnvFile
import Dotpath.Proofs.Dict
import Dotpath.Proofs.FirstFault

/-!
# What an env file defines

The entries of an env file are expanded one after the other, each over the values so far. What a key
is worth in the end is a matter of its last entry alone, and of the values before that.

Results:
1. `find?_of_expandEntries_last`: the value of a key is what its last entry expands to.
2. `contains_iff_mem_entries`: the keys are those of the entries.
3. `definitionsOf_eq_ok`: a file with definitions is no document, is text, and is read to its end.
-/

namespace Dotpath.EnvFile

variable {env : Env} {earlier values : Dict String}

/-! ## Entries in order -/

theorem expandEntries_cons_eq_ok {key : String} {marked : List Char}
    {rest : List (String × List Char)} :
    expandEntries env earlier ((key, marked) :: rest) = .ok values
      ↔ ∃ value, expand (resolve env earlier) marked = .ok value ∧
        expandEntries env (earlier.insert key (.ofList value)) rest = .ok values :=
  bind_eq_ok

/-- Entries are expanded over what the entries before them have come to. -/
theorem expandEntries_append_eq_ok {before rest : List (String × List Char)} :
    expandEntries env earlier (before ++ rest) = .ok values
      ↔ ∃ middle, expandEntries env earlier before = .ok middle ∧
        expandEntries env middle rest = .ok values := by
  induction before generalizing earlier with
  | nil => simp [expandEntries]
  | cons entry before ih =>
    obtain ⟨key, marked⟩ := entry
    rw [List.cons_append, expandEntries_cons_eq_ok]
    simp only [ih, expandEntries_cons_eq_ok]
    constructor
    · rintro ⟨value, hvalue, middle, hbefore, hrest⟩
      exact ⟨middle, ⟨value, hvalue, hbefore⟩, hrest⟩
    · rintro ⟨middle, ⟨value, hvalue, hbefore⟩, hrest⟩
      exact ⟨value, hvalue, middle, hbefore, hrest⟩

/-- Entries leave the values of other keys alone. -/
theorem find?_of_expandEntries_other {entries : List (String × List Char)}
    (h : expandEntries env earlier entries = .ok values) {key : String}
    (hkey : ∀ entry ∈ entries, entry.1 ≠ key) : values.find? key = earlier.find? key := by
  induction entries generalizing earlier with
  | nil => rw [Except.ok.inj h]
  | cons entry rest ih =>
    obtain ⟨hne, hrest⟩ := List.forall_mem_cons.1 hkey
    obtain ⟨value, -, hexpand⟩ := expandEntries_cons_eq_ok.1 h
    rw [ih hexpand hrest, Dict.find?_insert, if_neg (Ne.symm hne)]

/-- A key is worth what its last entry expands to over the values before that entry. -/
theorem find?_of_expandEntries_last {before after : List (String × List Char)} {key : String}
    {marked : List Char}
    (h : expandEntries env earlier (before ++ (key, marked) :: after) = .ok values)
    (hafter : ∀ entry ∈ after, entry.1 ≠ key) :
    ∃ middle value, expandEntries env earlier before = .ok middle ∧
      expand (resolve env middle) marked = .ok value ∧
      values.find? key = some (.ofList value) := by
  obtain ⟨middle, hbefore, hrest⟩ := expandEntries_append_eq_ok.1 h
  obtain ⟨value, hvalue, hexpand⟩ := expandEntries_cons_eq_ok.1 hrest
  refine ⟨middle, value, hbefore, hvalue, ?_⟩
  rw [find?_of_expandEntries_other hexpand hafter, Dict.find?_insert, if_pos rfl]

theorem contains_of_expandEntries {entries : List (String × List Char)}
    (h : expandEntries env earlier entries = .ok values) (key : String) :
    values.contains key ↔ earlier.contains key ∨ ∃ entry ∈ entries, entry.1 = key := by
  induction entries generalizing earlier with
  | nil => simp [Except.ok.inj h]
  | cons entry rest ih =>
    obtain ⟨value, -, hexpand⟩ := expandEntries_cons_eq_ok.1 h
    rw [ih hexpand, Dict.contains_insert]
    simp only [Bool.or_eq_true, beq_iff_eq, List.exists_mem_cons_iff]
    constructor
    · rintro ((rfl | hearlier) | hrest)
      · exact .inr (.inl rfl)
      · exact .inl hearlier
      · exact .inr (.inr hrest)
    · rintro (hearlier | rfl | hrest)
      · exact .inl (.inr hearlier)
      · exact .inl (.inl rfl)
      · exact .inr hrest

/-- The keys that a file defines are those of its entries. -/
theorem contains_iff_mem_entries {entries : List (String × List Char)}
    (h : expandEntries env {} entries = .ok values) (key : String) :
    values.contains key ↔ ∃ entry ∈ entries, entry.1 = key := by
  rw [contains_of_expandEntries h, Dict.contains_empty]
  simp

/-! ## Whole files -/

theorem definitions_eq_ok {reader : List Char → Reading} {text : List Char} :
    definitions reader env text = .ok values
      ↔ (reader (markAll text)).fault = none ∧
        expandEntries env {} (reader (markAll text)).entries = .ok values := by
  unfold definitions
  rw [bind_eq_ok]
  cases (reader (markAll text)).fault with
  | none =>
    constructor
    · rintro ⟨found, hfound, hvalues⟩
      rw [← Except.ok.inj hvalues]
      exact ⟨rfl, hfound⟩
    · rintro ⟨-, hvalues⟩
      exact ⟨values, hvalues, rfl⟩
  | some fault => simp

theorem definitionsOf_eq_ok {reader : List Char → Reading} {path : String} {bytes : List UInt8} :
    definitionsOf reader path bytes env = .ok values
      ↔ (FileName.isYaml path.toList || holdsMapping bytes) = false ∧
        ∃ text, Text.decodeUtf8 bytes = .ok text ∧ definitions reader env text = .ok values := by
  unfold definitionsOf
  split
  · next h => simp [h]
  · next h =>
    rw [Bool.not_eq_true] at h
    cases hdecode : Text.decodeUtf8 bytes with
    | error fault => simp
    | ok text =>
      dsimp only
      cases hfound : definitions reader env text with
      | error fault => simp [hfound]
      | ok found => simp [h, hfound]

end Dotpath.EnvFile
