import Dotpath.Proofs.Node.Maps
import Dotpath.Proofs.Node.Order

/-!
# Trees without tags

`Yaml.strip` takes every tag off the values of a tree, at any depth, and leaves mapping keys as they
are. Names address entries by their keys, so paths lead to the same places before and after.

Results:
1. `isNodeMap_strip`: a path sees no difference but the tags of what it finds.
2. `put_strip`, `set_strip`: stripping and writing commute.
-/

namespace Dotpath.Yaml

open Dotpath.Path

mutual

/-- The tree without the tags of its values. Mapping keys keep theirs. -/
def strip : Yaml → Yaml
  | tagged _ value => value.strip
  | sequence items => sequence (stripItems items)
  | mapping entries => mapping (stripEntries entries)
  | value => value

def stripItems : List Yaml → List Yaml
  | [] => []
  | item :: rest => item.strip :: stripItems rest

def stripEntries : List (Yaml × Yaml) → List (Yaml × Yaml)
  | [] => []
  | (key, value) :: rest => (key, value.strip) :: stripEntries rest

end

theorem stripItems_eq_map (items : List Yaml) : stripItems items = items.map strip := by
  induction items with
  | nil => rfl
  | cons item rest ih => rw [stripItems, ih, List.map_cons]

theorem stripEntries_eq_map (entries : List (Yaml × Yaml)) :
    stripEntries entries = entries.map (Prod.map id strip) := by
  induction entries with
  | nil => rfl
  | cons entry rest ih => rw [stripEntries, ih, List.map_cons]; rfl

theorem keys_stripEntries (entries : List (Yaml × Yaml)) :
    (stripEntries entries).map (·.1) = entries.map (·.1) := by
  rw [stripEntries_eq_map, List.map_map]
  rfl

/-! ## Reads -/

theorem kind_strip (tree : Yaml) : tree.strip.kind = tree.kind := by
  fun_induction untagged tree with
  | case1 tag value ih => exact ih
  | case2 tree => cases tree <;> simp_all [strip, kind]

theorem untagged_strip (tree : Yaml) : tree.strip.untagged = tree.strip := by
  fun_induction untagged tree with
  | case1 tag value ih => exact ih
  | case2 tree => cases tree <;> simp_all [strip, untagged]

theorem strip_untagged (tree : Yaml) : tree.untagged.strip = tree.strip := by
  fun_induction untagged tree with
  | case1 tag value ih => rwa [strip]
  | case2 tree => rfl

theorem addresses_stripEntries (entries : List (Yaml × Yaml)) (name : String) :
    addresses (stripEntries entries) name = addresses entries name :=
  addresses_congr (keys_stripEntries entries) name

theorem field?_strip (tree : Yaml) (name : String) :
    tree.strip.field? name = (tree.field? name).map strip := by
  fun_induction untagged tree with
  | case1 tag value ih => exact ih
  | case2 tree =>
    cases tree with
    | mapping entries =>
      rw [strip, field?, field?, addresses_stripEntries, stripEntries_eq_map, List.find?_map]
      have hkeys : addresses entries name ∘ Prod.map id strip = addresses entries name := rfl
      rw [hkeys]
      cases entries.find? (addresses entries name) <;> rfl
    | _ => simp_all [strip, field?]

theorem items?_strip (tree : Yaml) : tree.strip.items? = tree.items?.map (List.map strip) := by
  fun_induction untagged tree with
  | case1 tag value ih => exact ih
  | case2 tree =>
    cases tree with
    | sequence items => exact congrArg some (stripItems_eq_map items)
    | _ => simp_all [strip, items?]

theorem isNodeMap_strip : IsNodeMap strip where
  map_null := rfl
  map_emptyMapping := rfl
  map_ofItems items := congrArg sequence (stripItems_eq_map items)
  kind_map := kind_strip
  untagged_map tree := (untagged_strip tree).trans (strip_untagged tree).symm
  field?_map := field?_strip
  items?_map := items?_strip

/-! ## Writes -/

/-- A test that looks at keys only passes the same entries. -/
theorem replaceFirst_strip {test : Yaml × Yaml → Bool}
    (h : ∀ key value, test (key, strip value) = test (key, value)) (value : Yaml)
    (entries : List (Yaml × Yaml)) :
    replaceFirst test value.strip (stripEntries entries)
      = (replaceFirst test value entries).map stripEntries := by
  induction entries with
  | nil => rfl
  | cons entry rest ih =>
    obtain ⟨key, old⟩ := entry
    rw [stripEntries, replaceFirst, replaceFirst, h, ih]
    split
    · rfl
    · cases replaceFirst test value rest <;> rfl

theorem insertEntry_strip (key value : Yaml) (entries : List (Yaml × Yaml)) :
    insertEntry key value.strip (stripEntries entries)
      = stripEntries (insertEntry key value entries) := by
  induction entries with
  | nil => rfl
  | cons entry rest ih =>
    rw [stripEntries, insertEntry, insertEntry, ih]
    split <;> rfl

theorem putEntry_strip (name : String) (value : Yaml) (entries : List (Yaml × Yaml)) :
    putEntry name value.strip (stripEntries entries) =
      stripEntries (putEntry name value entries) := by
  rw [putEntry, putEntry, addresses_stripEntries, insertEntry_strip,
    replaceFirst_strip fun _ _ => rfl]
  cases replaceFirst (addresses entries name) value entries <;> rfl

theorem put_strip (tree value : Yaml) (accessor : Accessor) :
    put tree.strip accessor value.strip = (put tree accessor value).strip := by
  cases accessor with
  | index position => exact isNodeMap_strip.put_index_map tree value position
  | field name =>
    obtain ⟨entries, hentries⟩ := exists_asMapping tree
    rw [put, put, isNodeMap_strip.asMapping_map, hentries, strip, putField_mapping,
      putField_mapping, strip, putEntry_strip]

theorem set_strip (path : Path) (root value : Yaml) :
    path.set root.strip value.strip = (path.set root value).strip := by
  induction path generalizing root with
  | nil => rfl
  | cons accessor rest ih =>
    rw [set_cons, set_cons, isNodeMap_strip.child_map, ih, put_strip]

end Dotpath.Yaml
