import Dotpath.Dict
import Mathlib.Data.List.Dedup
import Mathlib.Data.List.Induction
import Mathlib.Data.List.Nodup

/-!
# Lookup and insertion in sorted maps

Where an insertion puts its entry, at the place of the old one if the key is there and else at a new
place between the others, and what a map made of a list of entries holds.

Results: `insert_perm` for a new key, `insert_of_split` for one that is there, `insert_cases` for
both, `insert_insert` and `insert_comm` for two insertions, `find?_ofList`,
`find?_ofList_eq_some_iff` and `length_ofList_eq_iff` for whole lists, and `mem_keys_iff` and
`pairwise_keys` for the keys in order.
-/

namespace Dotpath

namespace Entries

variable {α : Type}

theorem find?_eq (key : String) (entries : Entries α) :
    find? key entries = (List.find? (·.1 == key) entries).map (·.2) := by
  induction entries with
  | nil => rfl
  | cons head rest ih =>
    rw [find?, ih]
    by_cases h : head.1 = key
    · rw [if_pos h, List.find?_cons_of_pos (by simpa using h)]
      rfl
    · rw [if_neg h, List.find?_cons_of_neg (by simpa using h)]

theorem mem_of_find?_map {key : String} {value : α} {entries : Entries α}
    (h : (List.find? (·.1 == key) entries).map (·.2) = some value) : (key, value) ∈ entries := by
  obtain ⟨entry, hentry, rfl⟩ := Option.map_eq_some_iff.1 h
  obtain rfl : entry.1 = key := by simpa using List.find?_some hentry
  exact List.mem_of_find?_eq_some hentry

theorem mem_of_find? {key : String} {value : α} {entries : Entries α}
    (h : find? key entries = some value) : (key, value) ∈ entries :=
  mem_of_find?_map (by rwa [← find?_eq])

theorem isSome_find?_iff {key : String} {entries : Entries α} :
    (find? key entries).isSome ↔ ∃ entry ∈ entries, entry.1 = key := by
  rw [find?_eq, Option.isSome_map, List.find?_isSome]
  simp

/-- A new key goes to a place between the others that its value has no part in. -/
theorem exists_insert_of_absent {key : String} {entries : Entries α}
    (h : ∀ e ∈ entries, e.1 ≠ key) :
    ∃ before after, entries = before ++ after ∧
      ∀ value, insert key value entries = before ++ (key, value) :: after := by
  induction entries with
  | nil => exact ⟨[], [], rfl, fun _ => rfl⟩
  | cons head rest ih =>
    obtain ⟨hhead, hrest⟩ := List.forall_mem_cons.1 h
    by_cases hlt : key < head.1
    · exact ⟨[], head :: rest, rfl, fun _ => by rw [insert, if_pos hlt]; rfl⟩
    · obtain ⟨before, after, hsplit, hinsert⟩ := ih hrest
      refine ⟨head :: before, after, by rw [hsplit]; rfl, fun value => ?_⟩
      rw [insert, if_neg hlt, if_neg hhead, hinsert]
      rfl

/-- A new key adds its entry and moves no other. -/
theorem insert_perm {key : String} {entries : Entries α} (h : ∀ e ∈ entries, e.1 ≠ key)
    (value : α) : (insert key value entries).Perm (entries ++ [(key, value)]) := by
  obtain ⟨before, after, rfl, hinsert⟩ := exists_insert_of_absent h
  rw [hinsert]
  exact List.perm_middle.trans (List.perm_append_singleton ..).symm

/-- A key that is there keeps its place. -/
theorem insert_of_split {key : String} {old : α} {before after : Entries α}
    (h : Sorted (before ++ (key, old) :: after)) (value : α) :
    insert key value (before ++ (key, old) :: after) = before ++ (key, value) :: after := by
  induction before with
  | nil =>
    rw [List.nil_append, insert, if_neg (String.lt_irrefl key), if_pos rfl]
    rfl
  | cons head rest ih =>
    obtain ⟨hhead, hrest⟩ := List.pairwise_cons.1 h
    have hlt : head.1 < key := hhead (key, old) (by simp)
    rw [List.cons_append, insert, if_neg (String.lt_asymm hlt), if_neg (String.ne_of_lt hlt),
      ih hrest]
    rfl

/-- An insertion gives the entry of its key the new value, or puts a new entry among the others. -/
theorem insert_cases {entries : Entries α} (h : Sorted entries) (key : String) :
    (∃ before old after, entries = before ++ (key, old) :: after ∧
      ∀ value, insert key value entries = before ++ (key, value) :: after) ∨
    ((∀ e ∈ entries, e.1 ≠ key) ∧ ∃ before after, entries = before ++ after ∧
      ∀ value, insert key value entries = before ++ (key, value) :: after) := by
  cases hfind : find? key entries with
  | some old =>
    obtain ⟨before, after, rfl⟩ := List.append_of_mem (mem_of_find? hfind)
    exact .inl ⟨before, old, after, rfl, insert_of_split h⟩
  | none =>
    have habsent : ∀ e ∈ entries, e.1 ≠ key := by
      intro e he heq
      have hsome := isSome_find?_iff.2 ⟨e, he, heq⟩
      rw [hfind] at hsome
      exact nomatch hsome
    exact .inr ⟨habsent, exists_insert_of_absent habsent⟩

/-- Inserting the value that is there changes nothing. -/
theorem insert_of_find? {key : String} {value : α} {entries : Entries α} (h : Sorted entries)
    (hfind : find? key entries = some value) : insert key value entries = entries := by
  obtain ⟨before, after, rfl⟩ := List.append_of_mem (mem_of_find? hfind)
  exact insert_of_split h value

/-- The second of two insertions under one key takes the place of the first. -/
theorem insert_insert (key : String) (value other : α) (entries : Entries α) :
    insert key other (insert key value entries) = insert key other entries := by
  induction entries with
  | nil => simp [insert]
  | cons head rest ih =>
    obtain ⟨k, v⟩ := head
    by_cases hlt : key < k
    · simp [insert, hlt]
    · by_cases heq : k = key
      · simp [insert, heq]
      · simp [insert, hlt, heq, ih]

theorem insert_comm_of_lt {key other : String} (h : key < other) (value latter : α)
    (entries : Entries α) :
    insert other latter (insert key value entries)
      = insert key value (insert other latter entries) := by
  have hnot : ¬other < key := String.lt_asymm h
  have hne : key ≠ other := String.ne_of_lt h
  induction entries with
  | nil => simp [insert, h, hnot, hne]
  | cons head rest ih =>
    obtain ⟨k, v⟩ := head
    by_cases hlt : other < k
    · have hkey : key < k := String.lt_trans h hlt
      simp [insert, h, hnot, hne, hlt, hkey]
    · by_cases heq : k = other
      · subst heq
        simp [insert, h, hnot, hne]
      · by_cases hkey : key < k
        · simp [insert, hnot, hne, hlt, heq, hkey]
        · by_cases hsame : k = key
          · simp [insert, hnot, hne, hsame]
          · simp [insert, hlt, heq, hkey, hsame, ih]

/-- Two insertions under different keys can change places. -/
theorem insert_comm {key other : String} (h : key ≠ other) (value latter : α)
    (entries : Entries α) :
    insert other latter (insert key value entries)
      = insert key value (insert other latter entries) := by
  by_cases hlt : key < other
  · exact insert_comm_of_lt hlt value latter entries
  · exact (insert_comm_of_lt (lt_of_not_lt_of_ne hlt h.symm) latter value entries).symm

/-- Insertion looks at keys only. -/
theorem insert_map {β : Type} (f : α → β) (key : String) (value : α) (entries : Entries α) :
    insert key (f value) (entries.map (Prod.map id f))
      = (insert key value entries).map (Prod.map id f) := by
  induction entries with
  | nil => rfl
  | cons head rest ih =>
    obtain ⟨k, v⟩ := head
    rw [List.map_cons, Prod.map_apply, id_eq, insert, insert, ih]
    split
    · rfl
    · split <;> rfl

end Entries

namespace Dict

variable {α β : Type}

theorem contains_iff (dict : Dict α) (key : String) :
    dict.contains key ↔ ∃ value, dict.find? key = some value :=
  Option.isSome_iff_exists

@[simp] theorem contains_empty (key : String) : (∅ : Dict α).contains key = false := rfl

theorem contains_eq_false_iff (dict : Dict α) (key : String) :
    dict.contains key = false ↔ dict.find? key = none := by
  rw [contains, Option.isSome_eq_false_iff, Option.isNone_iff_eq_none]

theorem contains_insert (dict : Dict α) (key other : String) (value : α) :
    (dict.insert key value).contains other = (other == key || dict.contains other) := by
  rw [contains, contains, find?_insert]
  by_cases h : other = key <;> simp [h]

theorem mem_keys_iff (dict : Dict α) (key : String) : key ∈ dict.keys ↔ dict.contains key := by
  rw [contains, find?, Entries.isSome_find?_iff, keys, List.mem_map]

theorem pairwise_keys (dict : Dict α) : dict.keys.Pairwise (· < ·) :=
  List.pairwise_map.2 dict.sorted

theorem nodup_keys (dict : Dict α) : dict.keys.Nodup :=
  dict.pairwise_keys.imp String.ne_of_lt

/-- An entry is found under its key, for no other has that key. -/
theorem find?_eq_some_iff {dict : Dict α} {key : String} {value : α} :
    dict.find? key = some value ↔ (key, value) ∈ dict.entries := by
  constructor
  · exact Entries.mem_of_find?
  · intro hmem
    have hsome : (dict.find? key).isSome := Entries.isSome_find?_iff.2 ⟨(key, value), hmem, rfl⟩
    obtain ⟨found, hfound⟩ := Option.isSome_iff_exists.1 hsome
    have hentry : (key, found) = (key, value) :=
      List.inj_on_of_nodup_map dict.nodup_keys (Entries.mem_of_find? hfound) hmem rfl
    rw [hfound, (Prod.mk.inj hentry).2]

theorem nodup_entries (dict : Dict α) : dict.entries.Nodup :=
  dict.sorted.imp fun hlt heq => String.ne_of_lt hlt (congrArg Prod.fst heq)

/-- Two maps with the same values are one. -/
theorem ext_find? {dict other : Dict α} (h : ∀ key, dict.find? key = other.find? key) :
    dict = other := by
  have hperm : dict.entries.Perm other.entries := by
    refine (List.perm_ext_iff_of_nodup dict.nodup_entries other.nodup_entries).2 fun entry => ?_
    rw [← find?_eq_some_iff, ← find?_eq_some_iff, h]
  have hentries : dict.entries = other.entries :=
    hperm.eq_of_pairwise (fun _ _ _ _ hlt hgt => absurd hlt (String.lt_asymm hgt)) dict.sorted
      other.sorted
  cases dict
  cases other
  congr

/-- After a run of insertions every key of theirs has its new value. -/
theorem find?_foldl_insert {entries : Entries α} (h : entries.Sorted) (f : String → α → β)
    (base : Dict β) (key : String) :
    (entries.foldl (fun dict entry => dict.insert entry.1 (f entry.1 entry.2)) base).find? key
      = ((Entries.find? key entries).map (f key)).or (base.find? key) := by
  induction entries generalizing base with
  | nil => rfl
  | cons entry rest ih =>
    obtain ⟨hhead, hrest⟩ := List.pairwise_cons.1 h
    rw [List.foldl_cons, ih hrest, find?_insert, Entries.find?]
    by_cases hkey : entry.1 = key
    · subst hkey
      have habsent : Entries.find? entry.1 rest = none := by
        rw [← Option.not_isSome_iff_eq_none, Entries.isSome_find?_iff]
        rintro ⟨other, hother, heq⟩
        exact String.ne_of_lt (hhead other hother) heq.symm
      rw [habsent, if_pos rfl, if_pos rfl]
      rfl
    · rw [if_neg hkey, if_neg (Ne.symm hkey)]

/-- The first entry that passes a test has the least key of all that pass it. -/
theorem le_of_find?_entries {dict : Dict α} {test : String × α → Bool} {first other : String × α}
    (h : List.find? test dict.entries = some first) (hother : other ∈ dict.entries)
    (htest : test other = true) : first.1 ≤ other.1 := by
  obtain ⟨-, before, after, hsplit, hbefore⟩ := List.find?_eq_some_iff_append.1 h
  have hsorted := dict.sorted
  rw [Entries.Sorted, hsplit, List.pairwise_append, List.pairwise_cons] at hsorted
  rw [hsplit, List.mem_append, List.mem_cons] at hother
  rcases hother with hmem | rfl | hmem
  · have hfails := hbefore other hmem
    rw [htest] at hfails
    exact absurd hfails Bool.false_ne_true
  · exact String.le_refl other.1
  · exact String.not_lt.1 (String.lt_asymm (hsorted.2.1.1 other hmem))

/-- Of the entries with one key, the map holds the last. -/
theorem find?_ofList (entries : List (String × α)) (key : String) :
    (ofList entries).find? key = (entries.reverse.find? (·.1 == key)).map (·.2) := by
  induction entries using List.reverseRecOn with
  | nil => rfl
  | append_singleton entries entry ih =>
    have hinsert : ofList (entries ++ [entry]) = (ofList entries).insert entry.1 entry.2 := by
      rw [ofList, List.foldl_append]
      rfl
    rw [hinsert, find?_insert, ih, List.reverse_append, List.reverse_singleton,
      List.singleton_append]
    by_cases h : entry.1 = key
    · rw [if_pos h.symm, List.find?_cons_of_pos (by simpa using h)]
      rfl
    · rw [if_neg (Ne.symm h), List.find?_cons_of_neg (by simpa using h)]

/-- Entries with other keys do not matter to the value at a key. -/
theorem find?_ofList_of_ne {before middle after : List (String × α)} {key : String}
    (h : ∀ entry ∈ middle, entry.1 ≠ key) :
    (ofList (before ++ middle ++ after)).find? key = (ofList (before ++ after)).find? key := by
  have hmiddle : middle.reverse.find? (·.1 == key) = none :=
    List.find?_eq_none.2 fun entry hentry => by simpa using h entry (List.mem_reverse.1 hentry)
  rw [find?_ofList, find?_ofList]
  simp only [List.reverse_append, List.find?_append, hmiddle, Option.none_or]

theorem mem_of_find?_ofList {entries : List (String × α)} {key : String} {value : α}
    (h : (ofList entries).find? key = some value) : (key, value) ∈ entries := by
  rw [find?_ofList] at h
  exact List.mem_reverse.1 (Entries.mem_of_find?_map h)

theorem exists_find?_ofList {entries : List (String × α)} {key : String} {value : α}
    (h : (key, value) ∈ entries) : ∃ found, (ofList entries).find? key = some found := by
  rw [find?_ofList]
  cases hfound : entries.reverse.find? (·.1 == key) with
  | some entry => exact ⟨entry.2, rfl⟩
  | none =>
    have hne := List.find?_eq_none.1 hfound _ (List.mem_reverse.2 h)
    exact absurd (beq_self_eq_true key) hne

theorem contains_ofList {entries : List (String × α)} {key : String} :
    (ofList entries).contains key ↔ ∃ entry ∈ entries, entry.1 = key := by
  rw [contains_iff]
  constructor
  · rintro ⟨value, hvalue⟩
    exact ⟨(key, value), mem_of_find?_ofList hvalue, rfl⟩
  · rintro ⟨entry, hentry, rfl⟩
    exact exists_find?_ofList hentry

/-- The map holds an entry of the list if no later one has its key. -/
theorem find?_ofList_eq_some_iff {entries : List (String × α)} {key : String} {value : α} :
    (ofList entries).find? key = some value ↔ ∃ before after,
      entries = before ++ (key, value) :: after ∧ ∀ other ∈ after, other.1 ≠ key := by
  rw [find?_ofList, Option.map_eq_some_iff]
  constructor
  · rintro ⟨entry, hfound, rfl⟩
    obtain ⟨hkey, after, before, hsplit, hafter⟩ := List.find?_eq_some_iff_append.1 hfound
    obtain rfl : entry.1 = key := by simpa using hkey
    refine ⟨before.reverse, after.reverse, ?_, fun other hother => ?_⟩
    · rw [← List.reverse_reverse entries, hsplit]
      simp
    · simpa using hafter other (List.mem_reverse.1 hother)
  · rintro ⟨before, after, rfl, hafter⟩
    refine ⟨(key, value), List.find?_eq_some_iff_append.2 ⟨by simp, after.reverse, before.reverse,
      by simp, fun other hother => ?_⟩, rfl⟩
    simpa using hafter other (List.mem_reverse.1 hother)

/-- Of the entries that are renamed to one key, the map holds the one that had the greatest key. -/
theorem find?_ofList_rename {dict : Dict α} {rename : String → Option String}
    {key target : String} {value : α} (hvalue : dict.find? key = some value)
    (hkey : rename key = some target)
    (hlast : ∀ other, dict.contains other → rename other = some target → other ≤ key) :
    (ofList (dict.entries.filterMap fun entry =>
      (rename entry.1).map fun name => (name, entry.2))).find? target = some value := by
  have hsorted := dict.sorted
  obtain ⟨before, after, hsplit⟩ := List.append_of_mem (find?_eq_some_iff.1 hvalue)
  rw [Entries.Sorted, hsplit, List.pairwise_append, List.pairwise_cons] at hsorted
  refine find?_ofList_eq_some_iff.2 ⟨_, _, by
    rw [hsplit, List.filterMap_append, List.filterMap_cons, hkey]
    rfl, ?_⟩
  rintro renamed hmem rfl
  obtain ⟨other, hother, hname⟩ := List.mem_filterMap.1 hmem
  obtain ⟨name, hrename, rfl⟩ := Option.map_eq_some_iff.1 hname
  have hcontains : dict.contains other.1 :=
    (contains_iff dict other.1).2 ⟨other.2, find?_eq_some_iff.2 (by simp [hsplit, hother])⟩
  exact String.not_lt.2 (hlast other.1 hcontains hrename) (hsorted.2.1.1 other hother)

/-- Each key of the list counts once. -/
theorem length_ofList (entries : List (String × α)) :
    (ofList entries).entries.length = (entries.map (·.1)).dedup.length := by
  have hperm : (ofList entries).keys.Perm (entries.map (·.1)).dedup := by
    refine (List.perm_ext_iff_of_nodup (nodup_keys _) (List.nodup_dedup _)).2 fun key => ?_
    rw [mem_keys_iff, contains_ofList, List.mem_dedup, List.mem_map]
  rw [← hperm.length_eq, keys, List.length_map]

/-- No entry is lost if and only if the keys of the list are different. -/
theorem length_ofList_eq_iff (entries : List (String × α)) :
    (ofList entries).entries.length = entries.length ↔ (entries.map (·.1)).Nodup := by
  rw [length_ofList, ← List.dedup_eq_self]
  constructor
  · intro hlength
    exact (List.dedup_sublist _).eq_of_length (hlength.trans (List.length_map _).symm)
  · intro heq
    rw [heq, List.length_map]

theorem entries_ofList_map (f : α → β) (entries : List (String × α)) :
    (ofList (entries.map (Prod.map id f))).entries
      = (ofList entries).entries.map (Prod.map id f) := by
  -- The induction is on the entries that are still to be inserted, into any two such maps.
  have hfold : ∀ (dict : Dict α) (dict' : Dict β),
      dict'.entries = dict.entries.map (Prod.map id f) →
      ((entries.map (Prod.map id f)).foldl (fun d entry => d.insert entry.1 entry.2) dict').entries
        = (entries.foldl (fun d entry => d.insert entry.1 entry.2) dict).entries.map
            (Prod.map id f) := by
    induction entries with
    | nil => exact fun _ _ h => h
    | cons entry rest ih =>
      intro dict dict' h
      refine ih (dict.insert entry.1 entry.2) (dict'.insert entry.1 (f entry.2)) ?_
      exact (congrArg _ h).trans (Entries.insert_map f entry.1 entry.2 dict.entries)
  exact hfold {} {} rfl

end Dict

end Dotpath
