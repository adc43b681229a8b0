import Dotpath.Config
import Dotpath.Proofs.Access.Write
import Dotpath.Proofs.Dict
import Dotpath.Proofs.Flat.Leaves
import Dotpath.Proofs.Path.Render
import Mathlib.Data.List.Find
import Mathlib.Data.List.Nodup

/-!
# Flat keys and queries

A flat key is the text of a path through fields. Where the keys of each mapping can be told apart by
their texts and each text is one name of a path, the flat map holds at a key what a query of that
key finds, unless that is a mapping.

Results:
1. `field?_mapping_eq_some`: the entry that a name addresses.
2. `mem_leaves`: the leaves are what paths through fields lead to.
3. `value_iff_query`: flat values and queries agree.
-/

namespace Dotpath

/-! ## Plain keys -/

namespace Yaml

/-- A key without a tag whose text is a name that a path can hold. -/
structure IsPlainKey (key : Yaml) : Prop where
  untagged : ∀ tag value, key ≠ tagged tag value
  spellable : (Accessor.field key.keyText).Spellable

/-- In every mapping that is reached through mappings, and through tags, the keys are plain and have
different texts. -/
inductive PlainKeys : Yaml → Prop
  | leaf {tree : Yaml} : tree.kind ≠ .mapping → PlainKeys tree
  | mapping {tree : Yaml} {entries : List (Yaml × Yaml)} : tree.untagged = mapping entries →
      (∀ entry ∈ entries, IsPlainKey entry.1) →
      (entries.map fun entry => entry.1.keyText).Nodup →
      (∀ entry ∈ entries, PlainKeys entry.2) → PlainKeys tree

theorem isNamed_of_isString {entry : Yaml × Yaml} (h : IsPlainKey entry.1)
    (hstring : entry.1.isString = true) : isNamed entry.1.keyText entry = true := by
  obtain ⟨key, value⟩ := entry
  cases key with
  | string text => simp [isNamed, isText, keyText, format]
  | tagged tag inner => exact absurd rfl (h.untagged tag inner)
  | _ => exact absurd hstring Bool.false_ne_true

/-- Among plain keys with different texts a name addresses the entry whose key has that text. -/
theorem addresses_of_plain {entries : List (Yaml × Yaml)}
    (hplain : ∀ entry ∈ entries, IsPlainKey entry.1)
    (hnodup : (entries.map fun entry => entry.1.keyText).Nodup) {entry : Yaml × Yaml}
    (hentry : entry ∈ entries) (name : String) :
    addresses entries name entry = (entry.1.keyText == name) := by
  rw [addresses, Bool.eq_iff_iff, beq_iff_eq]
  split
  · next hany =>
    -- The key that is this very string has the text, and no other key has.
    obtain ⟨named, hmem, hnamed⟩ := List.any_eq_true.1 hany
    constructor
    · exact keyText_of_isNamed
    · intro htext
      have heq := htext.trans (keyText_of_isNamed hnamed).symm
      rw [List.inj_on_of_nodup_map hnodup hentry hmem heq]
      exact hnamed
  · next hnone =>
    rw [rendersTo, Bool.and_eq_true, beq_iff_eq]
    constructor
    · exact fun h => h.2
    · intro htext
      refine ⟨?_, htext⟩
      -- A plain string key with this text would have been found above.
      cases hstring : entry.1.isString with
      | false => rfl
      | true =>
        have hnamed := isNamed_of_isString (hplain entry hentry) hstring
        rw [htext] at hnamed
        exact absurd (List.any_eq_true.2 ⟨entry, hentry, hnamed⟩) hnone

theorem find?_key_eq_some {entries : List (Yaml × Yaml)}
    (hnodup : (entries.map fun entry => entry.1.keyText).Nodup) {name : String}
    {entry : Yaml × Yaml} :
    entries.find? (·.1.keyText == name) = some entry ↔
      entry ∈ entries ∧ entry.1.keyText = name := by
  constructor
  · exact fun h => ⟨List.mem_of_find?_eq_some h, by simpa using List.find?_some h⟩
  · rintro ⟨hentry, rfl⟩
    cases hfound : entries.find? (·.1.keyText == entry.1.keyText) with
    | none => exact absurd (beq_self_eq_true _) (List.find?_eq_none.1 hfound entry hentry)
    | some other =>
      have htext : other.1.keyText = entry.1.keyText := by simpa using List.find?_some hfound
      rw [List.inj_on_of_nodup_map hnodup (List.mem_of_find?_eq_some hfound) hentry htext]

theorem field?_mapping_eq_some {entries : List (Yaml × Yaml)}
    (hplain : ∀ entry ∈ entries, IsPlainKey entry.1)
    (hnodup : (entries.map fun entry => entry.1.keyText).Nodup) {name : String} {value : Yaml} :
    (mapping entries).field? name = some value
      ↔ ∃ entry ∈ entries, entry.1.keyText = name ∧ entry.2 = value := by
  rw [field?, List.find?_congr fun entry hentry => addresses_of_plain hplain hnodup hentry name,
    Option.map_eq_some_iff]
  simp only [find?_key_eq_some hnodup, and_assoc]

end Yaml

/-! ## Leaves and paths -/

namespace FlatMap

open Yaml Dotpath.Path

/-- The path through fields of these names. -/
def fieldPath (names : List String) : Path :=
  names.map .field

theorem render_fieldPath (names : List String) :
    (fieldPath names).render = names.foldl join "" := by
  rw [Path.render, fieldPath, List.foldl_map]
  rfl

theorem get_fieldPath_cons {tree value : Yaml} {name : String} {names : List String} :
    (fieldPath (name :: names)).get tree = .ok value
      ↔ tree.kind = .mapping ∧ ∃ child, tree.field? name = some child ∧
        (fieldPath names).get child = .ok value := by
  constructor
  · intro h
    obtain ⟨child, hstep, hrest⟩ := bind_eq_ok.1 h
    obtain ⟨hkind, hchild⟩ := step_field_eq_ok.1 hstep
    exact ⟨hkind, child, hchild, get_eq_ok_iff.2 hrest⟩
  · rintro ⟨hkind, child, hchild, hrest⟩
    exact bind_eq_ok.2 ⟨child, step_field_eq_ok.2 ⟨hkind, hchild⟩, get_eq_ok_iff.1 hrest⟩

/-- The leaves of a tree with plain keys are what paths through fields lead to, mappings left out,
and their flat keys are the texts of these paths below the flat key of the tree. -/
theorem mem_leaves {tree : Yaml} (h : tree.PlainKeys) (key flat : String) (value : Yaml) :
    (flat, value) ∈ leaves key tree
      ↔ ∃ names : List String, (∀ name ∈ names, (Accessor.field name).Spellable) ∧
        flat = names.foldl join key ∧ (fieldPath names).get tree = .ok value ∧
        value.kind ≠ .mapping := by
  induction h generalizing key with
  | @leaf tree hkind =>
    rw [leaves_of_kind_ne hkind, List.mem_singleton, Prod.mk.injEq]
    constructor
    · rintro ⟨rfl, rfl⟩
      exact ⟨[], by simp, rfl, rfl, hkind⟩
    · rintro ⟨names, -, rfl, hget, -⟩
      cases names with
      | nil => exact ⟨rfl, (Except.ok.inj hget).symm⟩
      | cons name names => exact absurd (get_fieldPath_cons.1 hget).1 hkind
  | @mapping tree entries huntagged hplain hnodup _ ih =>
    -- One step of the path chooses the entry whose leaves are looked at next.
    have hkind : tree.kind = .mapping := by
      rw [← kind_untagged, huntagged]
      rfl
    have hfield (name : String) (child : Yaml) : tree.field? name = some child
        ↔ ∃ entry ∈ entries, entry.1.keyText = name ∧ entry.2 = child := by
      rw [← field?_untagged, huntagged]
      exact field?_mapping_eq_some hplain hnodup
    rw [← leaves_untagged hkind, huntagged, leaves, leavesOf_eq_flatMap, List.mem_flatMap]
    constructor
    · rintro ⟨entry, hentry, hmem⟩
      obtain ⟨names, hnames, rfl, hget, hvalue⟩ := (ih entry hentry _).1 hmem
      refine ⟨entry.1.keyText :: names, ?_, rfl, ?_, hvalue⟩
      · exact List.forall_mem_cons.2 ⟨(hplain entry hentry).spellable, hnames⟩
      · exact get_fieldPath_cons.2 ⟨hkind, entry.2, (hfield _ _).2 ⟨entry, hentry, rfl, rfl⟩, hget⟩
    · rintro ⟨names, hnames, rfl, hget, hvalue⟩
      cases names with
      | nil =>
        obtain rfl := Except.ok.inj hget
        exact absurd hkind hvalue
      | cons name names =>
        obtain ⟨-, child, hchild, hrest⟩ := get_fieldPath_cons.1 hget
        obtain ⟨entry, hentry, rfl, rfl⟩ := (hfield _ _).1 hchild
        have hbelow := (List.forall_mem_cons.1 hnames).2
        exact ⟨entry, hentry, (ih entry hentry _).2 ⟨names, hbelow, rfl, hrest, hvalue⟩⟩

/-- At a key without brackets a document with plain keys has the leaf that the key leads to as a
path. -/
theorem mem_documentLeaves {document : Yaml} (hkind : document.kind = .mapping)
    (hplain : document.PlainKeys) {key : String} (hkey : '[' ∉ key.toList) (value : Yaml) :
    (key, value) ∈ documentLeaves document
      ↔ (∃ path, Path.parse key = .ok path ∧ path.get document = .ok value) ∧
        value.kind ≠ .mapping := by
  rw [documentLeaves_eq, if_pos hkind, mem_leaves hplain]
  constructor
  · rintro ⟨names, hnames, rfl, hget, hvalue⟩
    refine ⟨⟨fieldPath names, ?_, hget⟩, hvalue⟩
    rw [← render_fieldPath]
    refine parse_render_iff.2 ⟨?_, by simpa [fieldPath] using hnames⟩
    -- The empty path leads to the document itself, which is a mapping.
    intro hnil
    rw [hnil] at hget
    obtain rfl := Except.ok.inj hget
    exact hvalue hkind
  · rintro ⟨⟨path, hparse, hget⟩, hvalue⟩
    obtain ⟨names, rfl, hrender⟩ := exists_names_of_spells (parse_eq_ok.1 hparse) hkey
    have hnames := (spellable_of_parse hparse).steps
    refine ⟨names, by simpa using hnames, ?_, hget, hvalue⟩
    rw [← render_fieldPath, fieldPath, hrender]

end FlatMap

/-! ## Flat values and queries -/

namespace Config

open FlatMap

theorem ofDocument_mapping {path : String} {document : Yaml} {config : Config}
    (hload : ofDocument path document = .ok config) (hkind : document.kind = .mapping) :
    config.document = document ∧ config.values = FlatMap.ofDocument document := by
  rw [ofDocument, hkind] at hload
  dsimp only at hload
  split at hload
  · exact nomatch hload
  · obtain rfl := Except.ok.inj hload
    exact ⟨rfl, rfl⟩

theorem query_eq_ok {config : Config} {key : String} {value : Yaml} :
    config.query key = .ok value
      ↔ ∃ path, Path.parse key = .ok path ∧ path.get config.document = .ok value :=
  getAt_eq_ok

end Config

/-- A configuration whose document has plain keys holds at a flat key without brackets what a query
of that key finds, its tag included, unless that is a mapping. -/
theorem value_iff_query {path : String} {document : Yaml} {config : Config}
    (hload : Config.ofDocument path document = .ok config) (hkind : document.kind = .mapping)
    (hplain : document.PlainKeys) {key : String} (hkey : '[' ∉ key.toList) (value : Yaml) :
    config.value? key = some value ↔ config.query key = .ok value ∧ value.kind ≠ .mapping := by
  obtain ⟨hdocument, hvalues⟩ := Config.ofDocument_mapping hload hkind
  have hleaves := FlatMap.mem_documentLeaves hkind hplain hkey
  rw [Config.value?, hvalues, FlatMap.ofDocument, Config.query_eq_ok, hdocument, ← hleaves]
  constructor
  · exact Dict.mem_of_find?_ofList
  · intro hmem
    obtain ⟨found, hfound⟩ := Dict.exists_find?_ofList hmem
    -- Both leaves stand at the end of one path, so they are one.
    obtain ⟨⟨way, hway, hget⟩, -⟩ := (hleaves found).1 (Dict.mem_of_find?_ofList hfound)
    obtain ⟨⟨way', hway', hget'⟩, -⟩ := (hleaves value).1 hmem
    obtain rfl := Except.ok.inj (hway.symm.trans hway')
    obtain rfl := Except.ok.inj (hget.symm.trans hget')
    exact hfound

/-- Ports under number keys, below a tag, with a null key and an empty mapping beside them. -/
def serviceDocument : Yaml :=
  .tagged ⟨"service"⟩ (.mapping [
    (.string "ports", .tagged ⟨"open"⟩ (.mapping [
      (.number (.int 80), .tagged ⟨"plain"⟩ (.string "http")), (.bool true, .null)])),
    (.null, .mapping [])])

theorem plainKeys_serviceDocument : serviceDocument.PlainKeys := by
  have hport : Yaml.PlainKeys (.tagged ⟨"plain"⟩ (.string "http")) := .leaf (by decide)
  have hflag : Yaml.PlainKeys .null := .leaf (by decide)
  have hempty : Yaml.PlainKeys (.mapping []) := .mapping rfl (by simp) (by simp) (by simp)
  have hports : Yaml.PlainKeys (.tagged ⟨"open"⟩ (.mapping [
      (.number (.int 80), .tagged ⟨"plain"⟩ (.string "http")), (.bool true, .null)])) := by
    refine .mapping rfl ?_ (by decide) (by simpa using ⟨hport, hflag⟩)
    simpa using ⟨⟨nofun, by decide⟩, ⟨nofun, by decide⟩⟩
  refine .mapping rfl ?_ (by decide) (by simpa using ⟨hports, hempty⟩)
  simpa using ⟨⟨nofun, by decide⟩, ⟨nofun, by decide⟩⟩

def serviceConfig : Config :=
  ⟨"service.yaml", serviceDocument, .ofDocument serviceDocument⟩

theorem value_iff_query_service :
    Config.ofDocument "service.yaml" serviceDocument = .ok serviceConfig ∧
    serviceDocument.kind = .mapping ∧ serviceDocument.PlainKeys ∧ '[' ∉ "ports.80".toList ∧
    serviceConfig.query "ports.80" = .ok (.tagged ⟨"plain"⟩ (.string "http")) ∧
    serviceConfig.value? "ports.80" = some (.tagged ⟨"plain"⟩ (.string "http")) :=
  ⟨rfl, rfl, plainKeys_serviceDocument, by decide, rfl,
    (value_iff_query rfl rfl plainKeys_serviceDocument (by decide) _).2
      ⟨rfl, by decide⟩⟩

end Dotpath
