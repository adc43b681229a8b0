import Dotpath.Proofs.Node.Trees

/-!
# Slots

The entry that a name addresses stands at a place among the entries that depends on their keys only.
A write of the name puts its value there, or adds an entry where there is no such place.

Results:
1. `putEntry_of_slot`, `putEntry_of_no_slot`: a write of a field, by its place.
2. `putEntry_comm`: writes of two fields leave the same entries in either order.
-/

namespace Dotpath.Yaml

/-- The place of the entry that a name addresses, or the number of entries if it addresses none. -/
def slot (entries : List (Yaml × Yaml)) (name : String) : Nat :=
  entries.findIdx (addresses entries name)

theorem slot_congr {entries others : List (Yaml × Yaml)}
    (h : entries.map (·.1) = others.map (·.1)) (name : String) :
    slot entries name = slot others name := by
  have hkeys (es : List (Yaml × Yaml)) :
      es.findIdx (addresses others name)
        = (es.map (·.1)).findIdx fun key => addresses others name (key, null) := by
    rw [List.findIdx_map]
    rfl
  unfold slot
  rw [addresses_congr h, hkeys, hkeys, h]

theorem addresses_of_slot {entries : List (Yaml × Yaml)} {name : String} {entry : Yaml × Yaml}
    (h : entries[slot entries name]? = some entry) : addresses entries name entry = true := by
  obtain ⟨hlt, rfl⟩ := List.getElem?_eq_some_iff.1 h
  exact List.findIdx_getElem

/-- Two names do not share an entry. -/
theorem slot_ne {entries : List (Yaml × Yaml)} {name other : String} {entry : Yaml × Yaml}
    (h : name ≠ other) (hentry : entries[slot entries name]? = some entry) :
    slot entries name ≠ slot entries other := by
  intro heq
  have hother : addresses entries other entry = true := addresses_of_slot (heq ▸ hentry)
  exact h (eq_of_addresses hother (addresses_of_slot hentry))

theorem slot_of_split {entries before after : List (Yaml × Yaml)} {name : String}
    {entry : Yaml × Yaml} (hsplit : entries = before ++ entry :: after)
    (hbefore : ∀ e ∈ before, addresses entries name e = false)
    (hentry : addresses entries name entry = true) : slot entries name = before.length := by
  unfold slot
  -- The test stays that of all the entries when they are taken apart.
  generalize addresses entries name = test at hbefore hentry
  rw [hsplit, List.findIdx_append, List.findIdx_eq_length.2 hbefore, List.findIdx_cons, hentry]
  simp

/-! ## A write of a field -/

theorem putEntry_of_slot {entries : List (Yaml × Yaml)} {name : String} {entry : Yaml × Yaml}
    (h : entries[slot entries name]? = some entry) (value : Yaml) :
    putEntry name value entries = entries.set (slot entries name) (entry.1, value) := by
  rcases putEntry_cases name entries with
    ⟨before, first, after, hsplit, hbefore, hfirst, hput⟩ | ⟨hnone, -⟩
  · rw [slot_of_split hsplit hbefore hfirst] at h ⊢
    subst hsplit
    obtain rfl : first = entry := by simpa using h
    rw [hput]
    simp
  · have hentry := addresses_of_slot h
    rw [hnone entry (List.mem_of_getElem? h)] at hentry
    exact nomatch hentry

theorem putEntry_of_no_slot {entries : List (Yaml × Yaml)} {name : String}
    (h : entries[slot entries name]? = none) (value : Yaml) :
    putEntry name value entries = entries ++ [(string name, value)] := by
  rcases putEntry_cases name entries with
    ⟨before, first, after, hsplit, hbefore, hfirst, -⟩ | ⟨-, hput⟩
  · rw [slot_of_split hsplit hbefore hfirst] at h
    subst hsplit
    simp at h
  · exact hput value

/-- A new value leaves all names where they lead. -/
theorem slot_set {entries : List (Yaml × Yaml)} {index : Nat} {entry : Yaml × Yaml}
    (h : entries[index]? = some entry) (value : Yaml) (name : String) :
    slot (entries.set index (entry.1, value)) name = slot entries name := by
  apply slot_congr
  obtain ⟨hlt, rfl⟩ := List.getElem?_eq_some_iff.1 h
  have hkeys : (entries.set index entries[index]).map (·.1) = entries.map (·.1) := by
    rw [List.set_getElem_self]
  rwa [List.map_set] at hkeys ⊢

/-- A new entry takes no other name away from the entry that it leads to. -/
theorem slot_append {entries : List (Yaml × Yaml)} {name other : String} {entry : Yaml × Yaml}
    (h : name ≠ other) (hentry : entries[slot entries name]? = some entry) (value : Yaml) :
    slot (entries ++ [(string other, value)]) name = slot entries name := by
  have hlt : slot entries name < entries.length := (List.getElem?_eq_some_iff.1 hentry).1
  unfold slot at hlt ⊢
  rw [addresses_append_string h, List.findIdx_append, if_pos hlt]

/-- A new entry is the entry of no other name. -/
theorem no_slot_append {entries : List (Yaml × Yaml)} {name other : String} (h : name ≠ other)
    (hnone : entries[slot entries name]? = none) (value : Yaml) :
    (entries ++ [(string other, value)])[slot (entries ++ [(string other, value)]) name]?
      = none := by
  have hle : entries.length ≤ entries.findIdx (addresses entries name) :=
    List.getElem?_eq_none_iff.1 hnone
  unfold slot
  rw [addresses_append_string h, List.findIdx_append, if_neg (Nat.not_lt.2 hle), List.findIdx_cons,
    addresses_string_of_ne h, List.getElem?_eq_none_iff]
  simp [Nat.add_comm]

/-! ## Writes of two fields -/

/-- A write of one field leaves the entry of another where it was. -/
theorem slot_set_ne {entries : List (Yaml × Yaml)} {name other : String}
    {entry entry' : Yaml × Yaml} (h : name ≠ other)
    (hentry : entries[slot entries name]? = some entry)
    (hother : entries[slot entries other]? = some entry') (value : Yaml) :
    (entries.set (slot entries name) (entry.1, value))[
      slot (entries.set (slot entries name) (entry.1, value)) other]? = some entry' := by
  rw [slot_set hentry, List.getElem?_set_ne (slot_ne h hentry)]
  exact hother

theorem putEntry_comm_of_slots {entries : List (Yaml × Yaml)} {name other : String}
    {entry entry' : Yaml × Yaml} (h : name ≠ other)
    (hentry : entries[slot entries name]? = some entry)
    (hother : entries[slot entries other]? = some entry') (value latter : Yaml) :
    putEntry other latter (putEntry name value entries)
      = putEntry name value (putEntry other latter entries) := by
  rw [putEntry_of_slot hentry, putEntry_of_slot (slot_set_ne h hentry hother value),
    putEntry_of_slot hother, putEntry_of_slot (slot_set_ne h.symm hother hentry latter),
    slot_set hentry, slot_set hother, List.set_comm _ _ (slot_ne h hentry)]

theorem putEntry_comm_of_new {entries : List (Yaml × Yaml)} {name other : String}
    {entry : Yaml × Yaml} (h : name ≠ other) (hentry : entries[slot entries name]? = some entry)
    (hnew : entries[slot entries other]? = none) (value latter : Yaml) :
    putEntry other latter (putEntry name value entries)
      = putEntry name value (putEntry other latter entries) := by
  obtain ⟨hlt, -⟩ := List.getElem?_eq_some_iff.1 hentry
  have hstays : (entries ++ [(string other, latter)])[
      slot (entries ++ [(string other, latter)]) name]? = some entry := by
    rwa [slot_append h hentry, List.getElem?_append_left hlt]
  have hstill : (entries.set (slot entries name) (entry.1, value))[
      slot (entries.set (slot entries name) (entry.1, value)) other]? = none := by
    rw [slot_set hentry, List.getElem?_eq_none_iff, List.length_set]
    exact List.getElem?_eq_none_iff.1 hnew
  rw [putEntry_of_slot hentry, putEntry_of_no_slot hstill, putEntry_of_no_slot hnew,
    putEntry_of_slot hstays, slot_append h hentry, List.set_append_left _ _ hlt]

/-- Only two new entries stand in the order in which they were written. -/
theorem putEntry_comm {name other : String} (h : name ≠ other) (entries : List (Yaml × Yaml))
    (value latter : Yaml) :
    (putEntry other latter (putEntry name value entries)).Perm
      (putEntry name value (putEntry other latter entries)) := by
  cases hname : entries[slot entries name]? with
  | some entry =>
    cases hother : entries[slot entries other]? with
    | some entry' => rw [putEntry_comm_of_slots h hname hother]
    | none => rw [putEntry_comm_of_new h hname hother]
  | none =>
    cases hother : entries[slot entries other]? with
    | some entry' => rw [putEntry_comm_of_new h.symm hother hname]
    | none =>
      rw [putEntry_of_no_slot hname, putEntry_of_no_slot hother,
        putEntry_of_no_slot (no_slot_append h.symm hother value),
        putEntry_of_no_slot (no_slot_append h hname latter), List.append_assoc, List.append_assoc]
      exact (List.Perm.swap ..).append_left entries

end Dotpath.Yaml
