/-!
# Sorted maps from strings

Entries are kept in the order of their keys, which for strings is the order of code points and so of
UTF-8 bytes. `Entries` are bare association lists; a `Dict` carries the proof that its keys
increase. Results: `find?_insert`, and `insert` keeps the order.
-/

namespace Dotpath

abbrev Entries (α : Type) := List (String × α)

namespace Entries

variable {α : Type}

/-- The value of the first entry with this key. -/
def find? (key : String) : Entries α → Option α
  | [] => none
  | (k, v) :: rest => if k = key then some v else find? key rest

/-- Puts an entry in its place, where it takes over from one with the same key. -/
def insert (key : String) (value : α) : Entries α → Entries α
  | [] => [(key, value)]
  | (k, v) :: rest =>
    if key < k then (key, value) :: (k, v) :: rest
    else if k = key then (key, value) :: rest
    else (k, v) :: insert key value rest

/-- Keys increase strictly. -/
def Sorted (entries : Entries α) : Prop :=
  entries.Pairwise (fun a b => a.1 < b.1)

theorem lt_of_not_lt_of_ne {a b : String} (h : ¬a < b) (hne : b ≠ a) : b < a := by
  have hle : b ≤ a := String.not_lt.1 h
  rcases Decidable.em (b < a) with hlt | hlt
  · exact hlt
  · exact absurd (String.le_antisymm hle (String.not_lt.1 hlt)) hne

theorem mem_insert {key : String} {value : α} {entries : Entries α} {entry : String × α}
    (h : entry ∈ insert key value entries) : entry = (key, value) ∨ entry ∈ entries := by
  induction entries with
  | nil => simpa [insert] using h
  | cons head rest ih =>
    rw [insert] at h
    split at h
    · simpa using h
    · split at h
      · rcases List.mem_cons.1 h with rfl | h
        · exact .inl rfl
        · exact .inr (List.mem_cons_of_mem _ h)
      · rcases List.mem_cons.1 h with rfl | h
        · exact .inr (List.mem_cons_self ..)
        · exact (ih h).imp id (List.mem_cons_of_mem _)

theorem Sorted.insert {entries : Entries α} (key : String) (value : α) (h : Sorted entries) :
    Sorted (insert key value entries) := by
  induction entries with
  | nil => simp [Entries.insert, Sorted]
  | cons head rest ih =>
    obtain ⟨k, v⟩ := head
    have hhead := (List.pairwise_cons.1 h).1
    have hrest := (List.pairwise_cons.1 h).2
    rw [Entries.insert]
    split
    · next hlt =>
      refine List.pairwise_cons.2 ⟨fun e he => ?_, h⟩
      rcases List.mem_cons.1 he with rfl | he
      · exact hlt
      · exact String.lt_trans hlt (hhead e he)
    · next hlt =>
      split
      · next heq =>
        subst heq
        exact List.pairwise_cons.2 ⟨hhead, hrest⟩
      · next hne =>
        refine List.pairwise_cons.2 ⟨fun e he => ?_, ih hrest⟩
        rcases mem_insert he with rfl | he
        · exact lt_of_not_lt_of_ne hlt hne
        · exact hhead e he

/-- After an insertion the key has the new value and every other key what it had. -/
theorem find?_insert (key other : String) (value : α) (entries : Entries α) :
    find? other (insert key value entries)
      = if other = key then some value else find? other entries := by
  induction entries with
  | nil =>
    by_cases h : other = key
    · simp [insert, find?, h]
    · simp [insert, find?, h, Ne.symm h]
  | cons head rest ih =>
    obtain ⟨k, v⟩ := head
    rw [insert]
    split
    · next hlt =>
      by_cases h : other = key
      · simp [find?, h]
      · simp [find?, h, Ne.symm h]
    · split
      · next heq =>
        subst heq
        by_cases h : other = k
        · simp [find?, h]
        · simp [find?, h, Ne.symm h]
      · next hne =>
        by_cases hk : k = other
        · subst hk
          simp [find?, hne]
        · simp only [find?, hk, if_false, ih]

end Entries

/-- A map from strings, in the order of its keys. -/
structure Dict (α : Type) where
  entries : Entries α
  sorted : entries.Sorted
deriving DecidableEq

namespace Dict

variable {α β : Type}

def empty : Dict α := ⟨[], List.Pairwise.nil⟩

instance : EmptyCollection (Dict α) := ⟨empty⟩

instance : Inhabited (Dict α) := ⟨empty⟩

def find? (dict : Dict α) (key : String) : Option α :=
  Entries.find? key dict.entries

def contains (dict : Dict α) (key : String) : Bool :=
  (dict.find? key).isSome

def insert (dict : Dict α) (key : String) (value : α) : Dict α :=
  ⟨Entries.insert key value dict.entries, dict.sorted.insert key value⟩

/-- The entries in order; a later one takes over from an earlier one with the same key. -/
def ofList (entries : List (String × α)) : Dict α :=
  entries.foldl (fun dict entry => dict.insert entry.1 entry.2) {}

def keys (dict : Dict α) : List String :=
  dict.entries.map (·.1)

@[simp] theorem find?_empty (key : String) : (∅ : Dict α).find? key = none := rfl

theorem find?_insert (dict : Dict α) (key other : String) (value : α) :
    (dict.insert key value).find? other
      = if other = key then some value else dict.find? other :=
  Entries.find?_insert key other value dict.entries

end Dict

end Dotpath
