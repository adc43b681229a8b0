import Dotpath.Json
import Dotpath.Proofs.Dict
import Dotpath.Proofs.Node.Lawful
import Dotpath.Yaml.Node

/-!
# Both kinds of trees are lawful

A write of a field of a YAML mapping either replaces the value of the entry that the name addresses
or, if there is none, adds an entry at the end (`putEntry_cases`). No entry is addressed by two
names (`eq_of_addresses`), which is why other fields keep their values.

Results:
1. `LawfulNode` and `OverwritableNode` for `Yaml` and `Json`.
2. `Format`: the two formats of documents, for statements about both.
-/

namespace Dotpath

/-! ## Entries of YAML mappings -/

namespace Yaml

theorem isText_iff {name : String} {key : Yaml} : key.isText name = true ↔ key = string name := by
  cases key with
  | string s => simp [isText]
  | _ => simp [isText]

theorem sameKey_string (key : Yaml) (name : String) :
    sameKey key (string name) = key.isText name := by
  cases key with
  | string s => simp [sameKey, isText]
  | _ => simp [sameKey, isText]

theorem isNamed_iff {name : String} {entry : Yaml × Yaml} :
    isNamed name entry = true ↔ entry.1 = string name :=
  isText_iff

theorem keyText_of_isNamed {name : String} {entry : Yaml × Yaml} (h : isNamed name entry = true) :
    entry.1.keyText = name := by
  rw [isNamed_iff.1 h]
  rfl

@[simp] theorem isNamed_string (name other : String) (value : Yaml) :
    isNamed other (string name, value) = (name == other) := rfl

@[simp] theorem rendersTo_string (name other : String) (value : Yaml) :
    rendersTo other (string name, value) = false := rfl

/-- The entry that a name addresses can be told from the keys alone. -/
theorem addresses_congr {entries others : List (Yaml × Yaml)}
    (h : entries.map (·.1) = others.map (·.1)) (name : String) :
    addresses entries name = addresses others name := by
  have hany : entries.any (isNamed name) = others.any (isNamed name) := by
    have hkeys (es : List (Yaml × Yaml)) :
        es.any (isNamed name) = (es.map (·.1)).any (isText name) := by
      rw [List.any_map]
      rfl
    rw [hkeys, hkeys, h]
  funext entry
  simp only [addresses, hany]

/-- No entry is addressed by two names: a string key is one name only, and so is what any other key
is shown as. -/
theorem eq_of_addresses {entries : List (Yaml × Yaml)} {name other : String} {entry : Yaml × Yaml}
    (h : addresses entries name entry = true) (h' : addresses entries other entry = true) :
    other = name := by
  have hmixed : ∀ {a b : String}, isNamed a entry = true → rendersTo b entry = true → False := by
    intro a b ha hb
    obtain ⟨key, value⟩ := entry
    obtain rfl : key = string a := isNamed_iff.1 ha
    simp at hb
  unfold addresses at h h'
  split at h <;> split at h'
  · have hkey := (isNamed_iff.1 h).symm.trans (isNamed_iff.1 h')
    exact (Yaml.string.inj hkey).symm
  · exact (hmixed h h').elim
  · exact (hmixed h' h).elim
  · simp only [rendersTo, Bool.and_eq_true, beq_iff_eq] at h h'
    exact h'.2.symm.trans h.2

/-! ### Replacing and adding an entry -/

/-- The first entry that passes the test gets the new value, whatever that is. -/
theorem replaceFirst_cases (test : Yaml × Yaml → Bool) (entries : List (Yaml × Yaml)) :
    (∃ before entry after, entries = before ++ entry :: after ∧
      (∀ e ∈ before, test e = false) ∧ test entry = true ∧
      ∀ value, replaceFirst test value entries = some (before ++ (entry.1, value) :: after)) ∨
    ((∀ e ∈ entries, test e = false) ∧ ∀ value, replaceFirst test value entries = none) := by
  induction entries with
  | nil => exact .inr ⟨by simp, fun _ => rfl⟩
  | cons head rest ih =>
    cases htest : test head with
    | true =>
      exact .inl ⟨[], head, rest, rfl, by simp, htest, fun _ => by simp [replaceFirst, htest]⟩
    | false =>
      rcases ih with ⟨before, entry, after, hsplit, hbefore, hentry, hreplace⟩ | ⟨hnone, hreplace⟩
      · refine .inl ⟨head :: before, entry, after, by rw [hsplit]; rfl, ?_, hentry, fun value => ?_⟩
        · exact List.forall_mem_cons.2 ⟨htest, hbefore⟩
        · simp [replaceFirst, htest, hreplace]
      · refine .inr ⟨List.forall_mem_cons.2 ⟨htest, hnone⟩, fun value => ?_⟩
        simp [replaceFirst, htest, hreplace]

theorem insertEntry_of_absent {key value : Yaml} {entries : List (Yaml × Yaml)}
    (h : ∀ entry ∈ entries, sameKey entry.1 key = false) :
    insertEntry key value entries = entries ++ [(key, value)] := by
  induction entries with
  | nil => rfl
  | cons head rest ih =>
    have hhead := h head List.mem_cons_self
    rw [insertEntry, if_neg (by simp [hhead]), ih fun e he => h e (List.mem_cons_of_mem _ he)]
    rfl

/-- The entries of a mapping after a write of one field. -/
def putEntry (name : String) (value : Yaml) (entries : List (Yaml × Yaml)) : List (Yaml × Yaml) :=
  (replaceFirst (addresses entries name) value entries).getD
    (insertEntry (string name) value entries)

theorem not_isNamed_of_not_addresses {name : String} {entries : List (Yaml × Yaml)}
    (h : ∀ entry ∈ entries, addresses entries name entry = false) :
    ∀ entry ∈ entries, isNamed name entry = false := by
  intro entry hentry
  cases hnamed : isNamed name entry with
  | false => rfl
  | true =>
    have hany : entries.any (isNamed name) = true := List.any_eq_true.2 ⟨entry, hentry, hnamed⟩
    rw [← h entry hentry, addresses, if_pos hany, hnamed]

/-- A write of a field replaces the value of the first entry that the name addresses, and adds an
entry at the end if it addresses none. The value plays no part in that choice. -/
theorem putEntry_cases (name : String) (entries : List (Yaml × Yaml)) :
    (∃ before entry after, entries = before ++ entry :: after ∧
      (∀ e ∈ before, addresses entries name e = false) ∧ addresses entries name entry = true ∧
      ∀ value, putEntry name value entries = before ++ (entry.1, value) :: after) ∨
    ((∀ e ∈ entries, addresses entries name e = false) ∧
      ∀ value, putEntry name value entries = entries ++ [(string name, value)]) := by
  rcases replaceFirst_cases (addresses entries name) entries with
    ⟨before, entry, after, hsplit, hbefore, hentry, hreplace⟩ | ⟨hnone, hreplace⟩
  · refine .inl ⟨before, entry, after, hsplit, hbefore, hentry, fun value => ?_⟩
    rw [putEntry, hreplace]
    rfl
  · refine .inr ⟨hnone, fun value => ?_⟩
    rw [putEntry, hreplace]
    apply insertEntry_of_absent
    intro entry hentry
    rw [sameKey_string]
    exact not_isNamed_of_not_addresses hnone entry hentry

theorem replaceFirst_of_split {test : Yaml × Yaml → Bool} {before : List (Yaml × Yaml)}
    {entry : Yaml × Yaml} (hbefore : ∀ e ∈ before, test e = false) (hentry : test entry = true)
    (after : List (Yaml × Yaml)) (value : Yaml) :
    replaceFirst test value (before ++ entry :: after)
      = some (before ++ (entry.1, value) :: after) := by
  induction before with
  | nil => simp [replaceFirst, hentry]
  | cons head rest ih =>
    obtain ⟨hhead, hrest⟩ := List.forall_mem_cons.1 hbefore
    simp [replaceFirst, hhead, ih hrest]

/-- A new string key is no entry of any other name, and hides none. -/
theorem addresses_append_string {name other : String} (h : other ≠ name)
    (entries : List (Yaml × Yaml)) (value : Yaml) :
    addresses (entries ++ [(string name, value)]) other = addresses entries other := by
  have hany : (entries ++ [(string name, value)]).any (isNamed other)
      = entries.any (isNamed other) := by
    rw [List.any_append]
    simp [Ne.symm h]
  funext entry
  simp only [addresses, hany]

theorem addresses_string_of_ne {name other : String} (h : other ≠ name)
    (entries : List (Yaml × Yaml)) (value : Yaml) :
    addresses entries other (string name, value) = false := by
  unfold addresses
  split <;> simp [Ne.symm h]

theorem addresses_append_self (entries : List (Yaml × Yaml)) (name : String) (value : Yaml) :
    addresses (entries ++ [(string name, value)]) name = isNamed name := by
  have hany : (entries ++ [(string name, value)]).any (isNamed name) = true := by simp
  funext entry
  rw [addresses, if_pos hany]

/-- A write of a field is read back under its name, and all other names read what they read
before. -/
theorem field?_putEntry (name other : String) (value : Yaml) (entries : List (Yaml × Yaml)) :
    (mapping (putEntry name value entries)).field? other
      = if other = name then some value else (mapping entries).field? other := by
  rw [field?, field?]
  rcases putEntry_cases name entries with
    ⟨before, entry, after, hsplit, hbefore, hentry, hput⟩ | ⟨hnone, hput⟩
  · -- The keys are the same as before, so each name addresses the same place.
    have hkeys : (putEntry name value entries).map (·.1) = entries.map (·.1) := by
      rw [hput, hsplit]
      simp
    rw [addresses_congr hkeys, hput]
    split
    · next h =>
      subst h
      have hfound : addresses entries other (entry.1, value) = true := hentry
      have hpast : before.find? (addresses entries other) = none :=
        List.find?_eq_none.2 fun e he => by simp [hbefore e he]
      simp [hpast, hfound]
    · next h =>
      have hskip : addresses entries other entry = false := by
        cases hother : addresses entries other entry with
        | false => rfl
        | true => exact absurd (eq_of_addresses hentry hother) h
      have hskip' : addresses entries other (entry.1, value) = false := hskip
      generalize addresses entries other = test at hskip hskip'
      subst hsplit
      simp [hskip, hskip']
  · rw [hput]
    split
    · next h =>
      subst h
      have hnamed := not_isNamed_of_not_addresses hnone
      have hpast : entries.find? (isNamed other) = none :=
        List.find?_eq_none.2 fun e he => by simp [hnamed e he]
      simp [addresses_append_self, hpast]
    · next h =>
      rw [addresses_append_string h, List.find?_append]
      simp [addresses_string_of_ne h]

/-- The second of two writes of one field takes the place of the first: keys decide which entry a
name addresses, and the first write has changed none or added the one. -/
theorem putEntry_putEntry (name : String) (value other : Yaml) (entries : List (Yaml × Yaml)) :
    putEntry name other (putEntry name value entries) = putEntry name other entries := by
  rcases putEntry_cases name entries with
    ⟨before, entry, after, hsplit, hbefore, hentry, hput⟩ | ⟨hnone, hput⟩
  · have hkeys : (before ++ (entry.1, value) :: after).map (·.1) = entries.map (·.1) := by
      rw [hsplit]
      simp
    have hfound : addresses entries name (entry.1, value) = true := hentry
    rw [hput, hput, putEntry, addresses_congr hkeys, replaceFirst_of_split hbefore hfound]
    rfl
  · have hnamed : isNamed name (string name, value) = true := by simp
    rw [hput, hput, putEntry, addresses_append_self,
      replaceFirst_of_split (not_isNamed_of_not_addresses hnone) hnamed]
    rfl

/-! ## Trees below tags -/

theorem putField_mapping (entries : List (Yaml × Yaml)) (name : String) (value : Yaml) :
    Node.putField (mapping entries) name value = mapping (putEntry name value entries) := by
  change ((replaceFirst _ value entries).map mapping).getD (mapping _) = _
  unfold putEntry
  cases replaceFirst (addresses entries name) value entries <;> rfl

theorem putField_tagged (tag : Tag) (node : Yaml) (name : String) (value : Yaml) :
    Node.putField (tagged tag node) name value = tagged tag (Node.putField node name value) := by
  change ((node.replaceField? name value).map (tagged tag)).getD (tagged tag _)
    = tagged tag ((node.replaceField? name value).getD _)
  cases node.replaceField? name value <;> rfl

theorem kind_untagged (node : Yaml) : node.untagged.kind = node.kind := by
  fun_induction untagged node with
  | case1 tag value ih => simpa [kind] using ih
  | case2 node => rfl

theorem exists_untagged {node : Yaml} (h : node.kind = .mapping) :
    ∃ entries, node.untagged = mapping entries := by
  fun_induction untagged node with
  | case1 tag value ih => exact ih h
  | case2 node =>
    cases node with
    | mapping entries => exact ⟨entries, rfl⟩
    | _ => simp_all [kind]

theorem field?_untagged (node : Yaml) (name : String) :
    node.untagged.field? name = node.field? name := by
  fun_induction untagged node with
  | case1 tag value ih => simpa [field?] using ih
  | case2 node => rfl

theorem isSome_items? (node : Yaml) : node.items?.isSome ↔ node.kind = .sequence := by
  fun_induction untagged node with
  | case1 tag value ih => simpa [items?, kind] using ih
  | case2 node => cases node <;> simp_all [items?, kind]

theorem kind_putField {node : Yaml} (name : String) (value : Yaml) (h : node.kind = .mapping) :
    (Node.putField node name value).kind = .mapping := by
  fun_induction untagged node with
  | case1 tag inner ih =>
    rw [putField_tagged, kind]
    exact ih h
  | case2 node =>
    cases node with
    | mapping entries => rw [putField_mapping, kind]
    | _ => simp_all [kind]

theorem field?_putField {node : Yaml} (name other : String) (value : Yaml)
    (h : node.kind = .mapping) :
    (Node.putField node name value).field? other
      = if other = name then some value else node.field? other := by
  fun_induction untagged node with
  | case1 tag inner ih =>
    rw [putField_tagged, field?, field?]
    exact ih h
  | case2 node =>
    cases node with
    | mapping entries =>
      rw [putField_mapping]
      exact field?_putEntry name other value entries
    | _ => simp_all [kind]

theorem untagged_untagged (node : Yaml) : node.untagged.untagged = node.untagged := by
  fun_induction untagged node with
  | case1 tag value ih => exact ih
  | case2 node => cases node <;> simp_all [untagged]

/-- A mapping without a tag shows its entries. -/
theorem exists_mapping {node : Yaml} (hkind : node.kind = .mapping)
    (huntagged : node.untagged = node) : ∃ entries, node = mapping entries := by
  obtain ⟨entries, hentries⟩ := exists_untagged hkind
  exact ⟨entries, huntagged.symm.trans hentries⟩

instance : LawfulNode Yaml where
  kind_null := rfl
  kind_emptyMapping := rfl
  untagged_emptyMapping := rfl
  field?_emptyMapping _ := rfl
  kind_untagged := kind_untagged
  field?_untagged := field?_untagged
  items?_ofItems _ := rfl
  isSome_items? := isSome_items?
  kind_putField := kind_putField
  field?_putField := field?_putField

instance : OverwritableNode Yaml where
  untagged_untagged := untagged_untagged
  untagged_putField name value hkind huntagged := by
    obtain ⟨entries, rfl⟩ := exists_mapping hkind huntagged
    rw [putField_mapping]
    rfl
  putField_putField name value other hkind huntagged := by
    obtain ⟨entries, rfl⟩ := exists_mapping hkind huntagged
    rw [putField_mapping, putField_mapping, putField_mapping, putEntry_putEntry]

end Yaml

/-! ## JSON trees -/

namespace Json

theorem exists_object {node : Json} (h : node.kind = .mapping) :
    ∃ fields, node = object fields := by
  cases node with
  | object fields => exact ⟨fields, rfl⟩
  | _ => simp [kind] at h

theorem eq_array {node : Json} {items : List Json} (h : node.items? = some items) :
    node = array items := by
  cases node with
  | array elements => rw [Option.some.inj h]
  | _ => simp [items?] at h

/-- Replacing an entry and adding one are the same insertion. -/
theorem putField_eq (node : Json) (name : String) (value : Json) :
    Node.putField node name value = node.insertField name value := by
  change ((node.field? name).map fun _ => node.insertField name value).getD _ = _
  cases node.field? name <;> rfl

theorem isSome_items? (node : Json) : node.items?.isSome ↔ node.kind = .sequence := by
  cases node <;> simp [items?, kind]

theorem kind_putField {node : Json} (name : String) (value : Json) (h : node.kind = .mapping) :
    (Node.putField node name value).kind = .mapping := by
  rw [putField_eq]
  cases node with
  | object fields => rfl
  | _ => simp [kind] at h

theorem field?_putField {node : Json} (name other : String) (value : Json)
    (h : node.kind = .mapping) :
    (Node.putField node name value).field? other
      = if other = name then some value else node.field? other := by
  rw [putField_eq]
  cases node with
  | object fields => exact Entries.find?_insert name other value fields
  | _ => simp [kind] at h

instance : LawfulNode Json where
  kind_null := rfl
  kind_emptyMapping := rfl
  untagged_emptyMapping := rfl
  field?_emptyMapping _ := rfl
  kind_untagged _ := rfl
  field?_untagged _ _ := rfl
  items?_ofItems _ := rfl
  isSome_items? := isSome_items?
  kind_putField := kind_putField
  field?_putField := field?_putField

instance : OverwritableNode Json where
  untagged_untagged _ := rfl
  untagged_putField _ _ _ _ := rfl
  putField_putField {node} name value other _ _ := by
    rw [putField_eq, putField_eq, putField_eq]
    cases node with
    | object fields => exact congrArg object (Entries.insert_insert name value other fields)
    | _ => rfl

end Json

/-! ## The two formats -/

/-- A format of documents. -/
inductive Format where
  | yaml
  | json
deriving DecidableEq, Repr

namespace Format

/-- The trees of a format. -/
abbrev Tree : Format → Type
  | yaml => Yaml
  | json => Json

instance : (format : Format) → Node format.Tree
  | yaml => inferInstanceAs (Node Yaml)
  | json => inferInstanceAs (Node Json)

instance : (format : Format) → LawfulNode format.Tree
  | yaml => inferInstanceAs (LawfulNode Yaml)
  | json => inferInstanceAs (LawfulNode Json)

instance : (format : Format) → OverwritableNode format.Tree
  | yaml => inferInstanceAs (OverwritableNode Yaml)
  | json => inferInstanceAs (OverwritableNode Json)

end Format

end Dotpath
