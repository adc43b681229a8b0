import Dotpath.Proofs.Node.Image

/-!
# The two formats agree

A read and a write by path do to a JSON tree what they do to its image among the YAML trees. An
object has its fields in order while a new entry of a mapping goes to the end, so what a write
leaves behind is the same up to the order of entries.

Results:
1. `set_ofJson`: a write into the image makes the image of what the write makes of the tree.
2. `image_agrees`: reads and writes of both formats agree.
-/

namespace Dotpath

open Dotpath.Path Yaml

theorem set_ofJson {json : Json} (h : json.Ordered) (path : Path) (value : Json) :
    EqUpToOrder (path.set (ofJson json) (ofJson value)) (ofJson (path.set json value)) := by
  induction path generalizing json with
  | nil => exact .refl _
  | cons accessor rest ih =>
    rw [set_cons, set_cons, isNodeMap_ofJson.child_map]
    have hrest := ih (Json.inherited_ordered.child h accessor)
    exact .trans (put_congr _ accessor hrest) (put_ofJson h accessor _)

/-- A read of the image of a JSON tree finds the image of what it finds in the tree, or fails with
the same error. A write into the image makes the image of what it makes of the tree, up to the order
of entries. -/
theorem image_agrees (json value : Json) (path : Path) :
    (∀ found, path.get (ofJson json) = .ok (ofJson found) ↔ path.get json = .ok found) ∧
      (∀ fault, path.get (ofJson json) = .error fault ↔ path.get json = .error fault) ∧
      (json.Ordered →
        EqUpToOrder (path.set (ofJson json) (ofJson value)) (ofJson (path.set json value))) := by
  refine ⟨fun found => ?_, fun fault => ?_, fun h => set_ofJson h path value⟩
  · rw [isNodeMap_ofJson.get_map_eq_ok]
    constructor
    · rintro ⟨node, hnode, heq⟩
      rwa [← ofJson_inj heq]
    · exact fun h => ⟨found, h, rfl⟩
  · exact isNodeMap_ofJson.get_map_eq_error

/-- A server with a name, and a host below it. -/
def serverTree : Json :=
  .object [("name", .string "main"), ("server", .object [("host", .string "h")])]

theorem ordered_serverTree : serverTree.Ordered := by
  have hserver : (Json.object [("host", .string "h")]).Ordered :=
    .object (List.pairwise_singleton ..) (by simpa using .string "h")
  exact .object (List.pairwise_pair.2 (by decide)) (by simpa using ⟨.string "main", hserver⟩)

theorem image_agrees_server :
    serverTree.Ordered ∧
    EqUpToOrder
      (.mapping [(.string "name", .string "main"),
        (.string "server", .mapping [(.string "host", .string "h"),
          (.string "base", .sequence [.null, .bool true])])])
      (.mapping [(.string "name", .string "main"),
        (.string "server", .mapping [(.string "base", .sequence [.null, .bool true]),
          (.string "host", .string "h")])]) :=
  ⟨ordered_serverTree,
    (image_agrees serverTree (.bool true) [.field "server", .field "base", .index 1]).2.2
      ordered_serverTree⟩

end Dotpath
