import Dotpath.Proofs.Access.Write

/-!
# Maps of trees

A map between two types of trees that keeps all that a step can see: the kind of a node, its
tags, and what its fields and items are, up to the map itself. A read in the image is then the image
of the read, with the same error where it fails, and a write goes on from the image of the node that
it would go on from.

Results: `get_map_eq_ok` and `get_map_eq_error` for reads, `child_map` and `put_index_map` for the
steps of a write.
-/

namespace Dotpath

open Node Dotpath.Path

variable {α β : Type} [Node α] [Node β]

/-- A map that reads cannot tell from its source. -/
structure IsNodeMap (f : α → β) : Prop where
  map_null : f null = null
  map_emptyMapping : f emptyMapping = emptyMapping
  map_ofItems (items : List α) : f (ofItems items) = ofItems (items.map f)
  kind_map (node : α) : kind (f node) = kind node
  untagged_map (node : α) : untagged (f node) = f (untagged node)
  field?_map (node : α) (name : String) : field? (f node) name = (field? node name).map f
  items?_map (node : α) : items? (f node) = (items? node).map (List.map f)

namespace IsNodeMap

variable {f : α → β} (hf : IsNodeMap f)

include hf

/-! ## Reads -/

theorem step_map (node : α) (walked : Path) (accessor : Accessor) :
    step (f node) walked accessor = (step node walked accessor).map f := by
  cases accessor with
  | field name =>
    rw [step, step, hf.kind_map, hf.field?_map]
    split
    · cases field? node name <;> rfl
    · rfl
  | index position =>
    rw [step, step, hf.kind_map, hf.items?_map]
    cases items? node with
    | none => rfl
    | some items =>
      simp only [Option.map_some, List.getElem?_map, List.length_map]
      cases items[position]? <;> rfl

theorem getFrom_map (path walked : Path) (node : α) :
    getFrom (f node) walked path = (getFrom node walked path).map f := by
  induction path generalizing node walked with
  | nil => rfl
  | cons accessor rest ih =>
    rw [getFrom_cons, getFrom_cons, hf.step_map]
    cases step node walked accessor with
    | error fault => rfl
    | ok next => exact ih (walked ++ [accessor]) next

theorem get_map_eq_ok {path : Path} {root : α} {found : β} :
    path.get (f root) = .ok found ↔ ∃ node, path.get root = .ok node ∧ f node = found := by
  rw [Path.get, hf.getFrom_map path [] root, Path.get]
  cases getFrom root [] path <;> simp [Except.map]

theorem get_map_eq_error {path : Path} {root : α} {fault : AccessError} :
    path.get (f root) = .error fault ↔ path.get root = .error fault := by
  rw [Path.get, hf.getFrom_map path [] root, Path.get]
  cases getFrom root [] path <;> simp [Except.map]

/-! ## Steps of a write -/

theorem asMapping_map (node : α) : asMapping (f node) = f (asMapping node) := by
  rw [asMapping, asMapping, hf.kind_map]
  split
  · exact hf.untagged_map node
  · exact hf.map_emptyMapping.symm

theorem widened_map (node : α) (position : Nat) :
    widened (f node) position = (widened node position).map f := by
  rw [widened, widened, hf.items?_map]
  cases items? node <;> simp [hf.map_null]

theorem put_index_map (node value : α) (position : Nat) :
    put (f node) (.index position) (f value) = f (put node (.index position) value) := by
  rw [put, put, hf.widened_map, hf.map_ofItems, List.map_set]

theorem child_map (node : α) (accessor : Accessor) :
    child (f node) accessor = f (child node accessor) := by
  cases accessor with
  | field name =>
    rw [child, child, hf.asMapping_map, hf.field?_map]
    cases field? (asMapping node) name with
    | none => exact hf.map_emptyMapping.symm
    | some found => rfl
  | index position =>
    rw [child, child, hf.widened_map, List.getD_eq_getElem?_getD, List.getD_eq_getElem?_getD,
      List.getElem?_map]
    cases (widened node position)[position]? with
    | none => exact hf.map_null.symm
    | some found => rfl

end IsNodeMap

end Dotpath
