import Dotpath.Flat
import Dotpath.Proofs.Node.Trees

/-!
# The leaves of a document

Mappings are descended into, through tags, and any other value is a leaf.

Results: `leaves_of_kind_ne` and `leaves_untagged` for one value, `leavesOf_eq_flatMap` for the
entries of a mapping, `documentLeaves_eq` for a document.
-/

namespace Dotpath.FlatMap

open Yaml

theorem leaves_of_kind_ne {tree : Yaml} (h : tree.kind ≠ .mapping) (key : String) :
    leaves key tree = [(key, tree)] := by
  cases tree with
  | mapping entries => exact absurd rfl h
  | tagged tag value => exact if_neg h
  | _ => rfl

theorem leaves_tagged {value : Yaml} (h : value.kind = .mapping) (key : String) (tag : Tag) :
    leaves key (tagged tag value) = leaves key value :=
  if_pos h

theorem leaves_untagged {tree : Yaml} (h : tree.kind = .mapping) (key : String) :
    leaves key tree.untagged = leaves key tree := by
  fun_induction untagged tree with
  | case1 tag value ih =>
    have hvalue : value.kind = .mapping := h
    rw [leaves_tagged hvalue, ih hvalue]
  | case2 tree => rfl

theorem leavesOf_eq_flatMap (under : String) (entries : List (Yaml × Yaml)) :
    leavesOf under entries
      = entries.flatMap fun entry => leaves (join under entry.1.keyText) entry.2 := by
  induction entries with
  | nil => rfl
  | cons entry rest ih => rw [leavesOf, ih, List.flatMap_cons]

/-- The leaves of a document are those of a value without a key, if it is a mapping at all. -/
theorem documentLeaves_eq (document : Yaml) :
    documentLeaves document = if document.kind = .mapping then leaves "" document else [] := by
  by_cases h : document.kind = .mapping
  · obtain ⟨entries, hentries⟩ := exists_untagged h
    rw [if_pos h, ← leaves_untagged h, documentLeaves, hentries]
    rfl
  · rw [if_neg h, documentLeaves]
    split
    · next entries hentries =>
      rw [← kind_untagged, hentries] at h
      exact absurd rfl h
    · rfl

end Dotpath.FlatMap
