import Dotpath.Proofs.Dict
import Dotpath.Proofs.Flat.Leaves
import Dotpath.Proofs.Node.Strip

/-!
# Tags are transparent

Reads, writes and flat maps look through tags: what they make of a document without its tags is what
they make of the document, without tags.

Results:
1. `leaves_strip`: the leaves of a stripped value are its stripped leaves.
2. `tags_transparent`: stripping commutes with reads, writes and flat maps, and does not change
   which entry is suspect.
-/

namespace Dotpath

namespace FlatMap

open Yaml

mutual

theorem leaves_strip (key : String) :
    (tree : Yaml) → leaves key tree.strip = (leaves key tree).map (Prod.map id strip)
  | .null => rfl
  | .bool _ => rfl
  | .number _ => rfl
  | .string _ => rfl
  | .sequence _ => rfl
  | .mapping entries => leavesOf_strip key entries
  | .tagged tag value => by
    by_cases h : value.kind = .mapping
    · rw [leaves_tagged h, strip, leaves_strip key value]
    · have htagged : (tagged tag value).kind ≠ .mapping := h
      rw [leaves_of_kind_ne htagged, strip, leaves_of_kind_ne (by rwa [kind_strip])]
      rfl

theorem leavesOf_strip (under : String) :
    (entries : List (Yaml × Yaml)) →
      leavesOf under (stripEntries entries) = (leavesOf under entries).map (Prod.map id strip)
  | [] => rfl
  | (key, value) :: rest => by
    rw [stripEntries, leavesOf, leavesOf, leaves_strip, leavesOf_strip under rest, List.map_append]

end

theorem documentLeaves_strip (document : Yaml) :
    documentLeaves document.strip = (documentLeaves document).map (Prod.map id strip) := by
  rw [documentLeaves_eq, documentLeaves_eq, kind_strip]
  split
  · exact leaves_strip "" document
  · rfl

theorem entries_ofDocument_strip (document : Yaml) :
    (ofDocument document.strip).entries
      = (ofDocument document).entries.map (Prod.map id strip) := by
  rw [ofDocument, documentLeaves_strip, Dict.entries_ofList_map]
  rfl

/-- Whether an entry is suspect is a matter of what stands below its tags. -/
theorem isSuspect_strip (key : String) (value : Yaml) :
    isSuspect (key, value.strip) = isSuspect (key, value) := by
  fun_induction untagged value with
  | case1 tag value ih => exact ih
  | case2 value => cases value <;> simp_all [isSuspect, strip, untagged]

theorem suspect?_strip (document : Yaml) :
    (ofDocument document.strip).suspect? = (ofDocument document).suspect? := by
  have hsuspect : isSuspect ∘ Prod.map id strip = isSuspect :=
    funext fun entry => isSuspect_strip entry.1 entry.2
  rw [suspect?, suspect?, entries_ofDocument_strip, List.find?_map, hsuspect]
  cases List.find? isSuspect (ofDocument document).entries <;> rfl

end FlatMap

/-- Tags are transparent. In the document without tags a read finds what it finds in the document,
without tags, or fails with the same error; a write and the flat map commute with the loss of tags;
and the same entry of the flat map is suspect, if one is. -/
theorem tags_transparent (document value : Yaml) (path : Path) :
    (∀ found, path.get document.strip = .ok found
      ↔ ∃ node, path.get document = .ok node ∧ node.strip = found) ∧
    (∀ fault, path.get document.strip = .error fault ↔ path.get document = .error fault) ∧
    path.set document.strip value.strip = (path.set document value).strip ∧
    (FlatMap.ofDocument document.strip).entries
      = (FlatMap.ofDocument document).entries.map (fun entry => (entry.1, entry.2.strip)) ∧
    (FlatMap.ofDocument document.strip).suspect? = (FlatMap.ofDocument document).suspect? :=
  ⟨fun _ => Yaml.isNodeMap_strip.get_map_eq_ok, fun _ => Yaml.isNodeMap_strip.get_map_eq_error,
    Yaml.set_strip path document value, FlatMap.entries_ofDocument_strip document,
    FlatMap.suspect?_strip document⟩

example :
    (Yaml.tagged ⟨"a"⟩
        (.mapping [(.tagged ⟨"k"⟩ .null, .tagged ⟨"b"⟩ (.tagged ⟨"c"⟩ .null))])).strip
      = .mapping [(.tagged ⟨"k"⟩ .null, .null)] := rfl

end Dotpath
