import Dotpath.Proofs.Node.Lookup
import Dotpath.Proofs.Node.Order

/-!
# Clean trees

In a clean tree an entry can be told from its siblings by the text of its key: no key has a tag, and
no two keys of one mapping are shown as the same text. A write adds an entry only where its name
addresses none, and where keys have no tags there is then no key that is shown as that name.

Results:
1. `keyText_ne_of_not_addresses`: among keys without tags, a name that addresses no entry is the
   text of no key.
2. `CleanEntries.putEntry`: a write of a field keeps the entries of a mapping clean.
3. `writes_keep_clean`: writes of clean values keep a tree clean, one by one and in any sequence.
-/

namespace Dotpath

open Node

namespace Yaml

/-- A key without a tag. -/
def Bare (key : Yaml) : Prop :=
  ∀ tag value, key ≠ tagged tag value

/-- In every mapping, at any depth, no key has a tag and no two keys are shown as the same text.
With `inKeys` that goes for mappings inside of keys as well. -/
inductive Clean (inKeys : Bool) : Yaml → Prop
  | null : Clean inKeys null
  | bool (value : Bool) : Clean inKeys (bool value)
  | number (value : Number) : Clean inKeys (number value)
  | string (value : String) : Clean inKeys (string value)
  | sequence {items : List Yaml} : (∀ item ∈ items, Clean inKeys item) →
      Clean inKeys (sequence items)
  | mapping {entries : List (Yaml × Yaml)} : (∀ entry ∈ entries, entry.1.Bare) →
      (entries.map (·.1.keyText)).Nodup →
      (inKeys = true → ∀ entry ∈ entries, Clean inKeys entry.1) →
      (∀ entry ∈ entries, Clean inKeys entry.2) → Clean inKeys (mapping entries)
  | tagged (tag : Tag) {value : Yaml} : Clean inKeys value → Clean inKeys (tagged tag value)

/-- The entries of a clean mapping. -/
structure CleanEntries (inKeys : Bool) (entries : List (Yaml × Yaml)) : Prop where
  bare : ∀ entry ∈ entries, entry.1.Bare
  distinct : (entries.map (·.1.keyText)).Nodup
  keys : inKeys = true → ∀ entry ∈ entries, entry.1.Clean inKeys
  values : ∀ entry ∈ entries, entry.2.Clean inKeys

variable {inKeys : Bool}

theorem clean_mapping_iff {entries : List (Yaml × Yaml)} :
    (mapping entries).Clean inKeys ↔ CleanEntries inKeys entries := by
  constructor
  · intro h
    cases h with
    | mapping hbare hdistinct hkeys hvalues => exact ⟨hbare, hdistinct, hkeys, hvalues⟩
  · rintro ⟨hbare, hdistinct, hkeys, hvalues⟩
    exact .mapping hbare hdistinct hkeys hvalues

/-! ## Keys without tags -/

theorem not_isTaggedString_of_bare {key : Yaml} (h : key.Bare) : ¬key.IsTaggedString := by
  rintro ⟨hstring, htext⟩
  cases key with
  | string text => exact htext text rfl
  | tagged tag value => exact h tag value rfl
  | _ => exact nomatch hstring

/-- The two rounds of lookup miss no key that has no tag. -/
theorem keyText_ne_of_not_addresses {entries : List (Yaml × Yaml)} {name : String}
    (hbare : ∀ entry ∈ entries, entry.1.Bare)
    (hnone : ∀ entry ∈ entries, addresses entries name entry = false) :
    ∀ entry ∈ entries, entry.1.keyText ≠ name := by
  intro entry hentry htext
  obtain ⟨before, first, after, rfl, hfirst⟩ := exists_isFirstShown ⟨entry, hentry, htext⟩
  have hmem : first ∈ before ++ first :: after := by simp
  have hfound := addresses_of_isFirstShown hfirst (not_isTaggedString_of_bare (hbare first hmem))
  rw [hnone first hmem] at hfound
  exact nomatch hfound.2

/-! ## A write of a field -/

namespace CleanEntries

/-- A new value changes no key. -/
theorem replace {before after : List (Yaml × Yaml)} {entry : Yaml × Yaml} {value : Yaml}
    (h : CleanEntries inKeys (before ++ entry :: after)) (hvalue : value.Clean inKeys) :
    CleanEntries inKeys (before ++ (entry.1, value) :: after) := by
  constructor
  · simpa only [List.forall_mem_append, List.forall_mem_cons] using h.bare
  · simpa using h.distinct
  · simpa only [List.forall_mem_append, List.forall_mem_cons] using h.keys
  · have hvalues := h.values
    simp only [List.forall_mem_append, List.forall_mem_cons] at hvalues ⊢
    exact ⟨hvalues.1, hvalue, hvalues.2.2⟩

theorem append {entries : List (Yaml × Yaml)} {name : String} {value : Yaml}
    (h : CleanEntries inKeys entries) (hnew : ∀ entry ∈ entries, entry.1.keyText ≠ name)
    (hvalue : value.Clean inKeys) : CleanEntries inKeys (entries ++ [(string name, value)]) := by
  constructor
  · simp only [List.forall_mem_append, List.forall_mem_singleton]
    exact ⟨h.bare, nofun⟩
  · rw [List.map_append, List.nodup_append]
    refine ⟨h.distinct, List.pairwise_singleton _ _, ?_⟩
    rintro _ hmem _ hname rfl
    obtain ⟨entry, hentry, htext⟩ := List.mem_map.1 hmem
    exact hnew entry hentry (htext.trans (List.mem_singleton.1 hname))
  · simp only [List.forall_mem_append, List.forall_mem_singleton]
    exact fun hin => ⟨h.keys hin, .string name⟩
  · simp only [List.forall_mem_append, List.forall_mem_singleton]
    exact ⟨h.values, hvalue⟩

theorem putEntry {entries : List (Yaml × Yaml)} {value : Yaml} (h : CleanEntries inKeys entries)
    (hvalue : value.Clean inKeys) (name : String) :
    CleanEntries inKeys (putEntry name value entries) := by
  rcases putEntry_cases name entries with ⟨before, entry, after, rfl, -, -, hput⟩ | ⟨hnone, hput⟩
  · rw [hput]
    exact h.replace hvalue
  · rw [hput]
    exact h.append (keyText_ne_of_not_addresses h.bare hnone) hvalue

end CleanEntries

/-! ## Writes -/

theorem clean_untagged {node : Yaml} (h : node.Clean inKeys) : node.untagged.Clean inKeys := by
  fun_induction untagged node with
  | case1 tag value ih =>
    cases h with
    | tagged _ hvalue => exact ih hvalue
  | case2 node => exact h

theorem clean_items {node : Yaml} {items : List Yaml} (h : node.Clean inKeys)
    (hitems : node.items? = some items) : ∀ item ∈ items, item.Clean inKeys := by
  induction h with
  | sequence hall _ =>
    obtain rfl := Option.some.inj hitems
    exact hall
  | tagged tag _ ih => exact ih hitems
  | _ => exact nomatch hitems

theorem inherited_clean : Inherited (Clean inKeys) where
  null := .null
  emptyMapping := clean_mapping_iff.2 ⟨by simp, by simp, by simp, by simp⟩
  untagged := clean_untagged
  field hkind huntagged h hfound := by
    obtain ⟨entries, rfl⟩ := exists_mapping hkind huntagged
    obtain ⟨entry, hentry, rfl⟩ := Option.map_eq_some_iff.1 hfound
    exact (clean_mapping_iff.1 h).values entry (List.mem_of_find?_eq_some hentry)
  putField name hkind huntagged h hvalue := by
    obtain ⟨entries, rfl⟩ := exists_mapping hkind huntagged
    rw [putField_mapping]
    exact clean_mapping_iff.2 ((clean_mapping_iff.1 h).putEntry hvalue name)
  item := clean_items
  ofItems := .sequence

end Yaml

open Yaml

/-- Whatever is written into a clean tree, as long as the values are clean themselves, siblings stay
apart by the text of their keys, at every depth. -/
theorem writes_keep_clean (inKeys : Bool) :
    (∀ root value : Yaml, root.Clean inKeys → value.Clean inKeys →
      ∀ path : Path, (path.set root value).Clean inKeys) ∧
    ∀ (root : Yaml) (writes : List (Path × Yaml)), root.Clean inKeys →
      (∀ write ∈ writes, write.2.Clean inKeys) →
      (writes.foldl (fun tree write => write.1.set tree write.2) root).Clean inKeys := by
  constructor
  · intro root value hroot hvalue path
    exact inherited_clean.set hroot hvalue path
  · intro root writes hroot hvalues
    refine List.foldlRecOn writes _ hroot ?_
    intro tree htree write hwrite
    exact inherited_clean.set htree (hvalues write hwrite) write.1

/-- Ports under numbers and a boolean, and hosts in a sequence, one of them under null. -/
def cleanDocument : Yaml :=
  .tagged ⟨"net"⟩ (.mapping [
    (.string "ports", .mapping [(.number (.int 80), .string "http"), (.bool true, .null)]),
    (.string "hosts", .sequence [.string "a", .mapping [(.null, .bool true)]])])

theorem clean_cleanDocument : cleanDocument.Clean true := by
  have hports : (Yaml.mapping [(.number (.int 80), .string "http"), (.bool true, .null)]).Clean
      true :=
    clean_mapping_iff.2 ⟨by simp [Bare], by decide, by simp [Clean.number, Clean.bool],
      by simp [Clean.string, Clean.null]⟩
  have hnull : (Yaml.mapping [(.null, .bool true)]).Clean true :=
    clean_mapping_iff.2 ⟨by simp [Bare], by decide, by simp [Clean.null], by simp [Clean.bool]⟩
  have hhosts : (Yaml.sequence [.string "a", .mapping [(.null, .bool true)]]).Clean true :=
    .sequence (by simp [Clean.string, hnull])
  exact .tagged _ (clean_mapping_iff.2
    ⟨by simp [Bare], by decide, by simp [Clean.string], by simp [hports, hhosts]⟩)

/-- Writes of an entry under a boolean, of a new one beside it, of an item past the end of a
sequence, and of the entry under null. -/
def portWrites : List (Path × Yaml) :=
  [([.field "ports", .field "true"], .string "t"), ([.field "ports", .field "22"], .null),
    ([.field "hosts", .index 3, .field "name"], .string "d"),
    ([.field "hosts", .index 1, .field "null"], .mapping [(.number (.int 1), .null)])]

theorem writes_keep_clean_ports :
    cleanDocument.Clean true ∧
    (Path.set [.field "ports", .field "80"] cleanDocument (.string "web")).Clean true ∧
    (∀ write ∈ portWrites, write.2.Clean true) ∧
    (portWrites.foldl (fun tree write => write.1.set tree write.2) cleanDocument).Clean true := by
  have hone : (Yaml.mapping [(.number (.int 1), .null)]).Clean true :=
    clean_mapping_iff.2 ⟨by simp [Bare], by decide, by simp [Clean.number], by simp [Clean.null]⟩
  have hvalues : ∀ write ∈ portWrites, write.2.Clean true := by
    simp [portWrites, Clean.string, Clean.null, hone]
  exact ⟨clean_cleanDocument,
    (writes_keep_clean true).1 _ _ clean_cleanDocument (.string "web") _, hvalues,
    (writes_keep_clean true).2 _ _ clean_cleanDocument hvalues⟩

end Dotpath
