import Dotpath.Node

/-!
# Lawful nodes

Reads and writes by path meet at single nodes: the entry that a name addresses when it is read has
to be the one that it addresses when it is written. `LawfulNode` lists what this asks of a type of
trees, and `Node.putField` is the one way in which writes touch fields. `OverwritableNode` lists
what it takes for a second write to undo the first.
-/

namespace Dotpath

open Node

/-- Trees in which a field that was written is the field that is read, and no other field
changes. -/
class LawfulNode (α : Type) [Node α] : Prop where
  kind_null : kind (null : α) = .null
  kind_emptyMapping : kind (emptyMapping : α) = .mapping
  untagged_emptyMapping : untagged (emptyMapping : α) = emptyMapping
  field?_emptyMapping (name : String) : field? (emptyMapping : α) name = none
  kind_untagged (node : α) : kind (untagged node) = kind node
  field?_untagged (node : α) (name : String) : field? (untagged node) name = field? node name
  items?_ofItems (items : List α) : items? (ofItems items) = some items
  isSome_items? (node : α) : (items? node).isSome ↔ kind node = .sequence
  kind_putField {node : α} (name : String) (value : α) :
    kind node = .mapping → kind (putField node name value) = .mapping
  field?_putField {node : α} (name other : String) (value : α) :
    kind node = .mapping →
      field? (putField node name value) other
        = if other = name then some value else field? node other

/-- Lawful trees in which a write of a field leaves no tag on a mapping that had none, and of two
writes of one field only the second counts. -/
class OverwritableNode (α : Type) [Node α] : Prop extends LawfulNode α where
  untagged_untagged (node : α) : untagged (untagged node) = untagged node
  untagged_putField {node : α} (name : String) (value : α) :
    kind node = .mapping → untagged node = node →
      untagged (putField node name value) = putField node name value
  putField_putField {node : α} (name : String) (value other : α) :
    kind node = .mapping → untagged node = node →
      putField (putField node name value) name other = putField node name other

attribute [simp] LawfulNode.kind_null LawfulNode.kind_emptyMapping
  LawfulNode.untagged_emptyMapping LawfulNode.field?_emptyMapping LawfulNode.kind_untagged
  LawfulNode.field?_untagged LawfulNode.items?_ofItems

namespace Node

variable {α : Type} [Node α]

theorem asMapping_of_ne {node : α} (h : kind node ≠ .mapping) :
    asMapping node = (emptyMapping : α) :=
  if_neg h

theorem widened_of_items? {node : α} {items : List α} (h : items? node = some items)
    (position : Nat) :
    widened node position = items ++ List.replicate (position + 1 - items.length) null := by
  simp [widened, h]

theorem lt_length_widened (node : α) (position : Nat) :
    position < (widened node position).length := by
  simp only [widened, List.length_append, List.length_replicate]
  omega

/-- A sequence that is long enough is not widened. -/
theorem widened_of_lt {node : α} {items : List α} {position : Nat} (h : items? node = some items)
    (hlt : position < items.length) : widened node position = items := by
  rw [widened_of_items? h, Nat.sub_eq_zero_of_le hlt, List.replicate_zero, List.append_nil]

/-- Items that were there stay in their places when a sequence is widened. -/
theorem getElem?_widened_of_some {node item : α} {items : List α} {index : Nat}
    (h : items? node = some items) (hitem : items[index]? = some item) (position : Nat) :
    (widened node position)[index]? = some item := by
  obtain ⟨hlt, rfl⟩ := List.getElem?_eq_some_iff.1 hitem
  rw [widened_of_items? h, List.getElem?_append_left hlt, List.getElem?_eq_getElem hlt]

/-- Wherever a sequence is widened to, an item is what it was, or null if it was not there. -/
theorem getD_widened (node : α) (position index : Nat) :
    (widened node position).getD index null = ((items? node).getD []).getD index null := by
  unfold widened
  rw [List.getD_eq_getElem?_getD, List.getD_eq_getElem?_getD, List.getElem?_append]
  split
  · rfl
  · next hlt =>
    rw [List.getElem?_eq_none (Nat.not_lt.1 hlt), List.getElem?_replicate]
    split <;> rfl

/-- What a widened sequence holds past the items that were there is null. -/
theorem getD_widened_of_none {node : α} {items : List α} {index : Nat}
    (h : items? node = some items) (hindex : items[index]? = none) (position : Nat) :
    (widened node position).getD index null = null := by
  rw [getD_widened, h, Option.getD_some, List.getD_eq_getElem?_getD, hindex, Option.getD_none]

variable [LawfulNode α]

theorem items?_eq_none {node : α} (h : kind node ≠ .sequence) : items? node = none := by
  rw [← Option.not_isSome_iff_eq_none, LawfulNode.isSome_items?]
  exact h

@[simp] theorem kind_ofItems (items : List α) : kind (ofItems items) = .sequence := by
  rw [← LawfulNode.isSome_items?, LawfulNode.items?_ofItems]
  rfl

@[simp] theorem kind_asMapping (node : α) : kind (asMapping node) = .mapping := by
  unfold asMapping
  split
  · next h => rw [LawfulNode.kind_untagged, h]
  · exact LawfulNode.kind_emptyMapping

theorem field?_asMapping {node : α} (h : kind node = .mapping) (name : String) :
    field? (asMapping node) name = field? node name := by
  rw [asMapping, if_pos h, LawfulNode.field?_untagged]

@[simp] theorem asMapping_emptyMapping : asMapping (emptyMapping : α) = emptyMapping := by
  rw [asMapping, if_pos LawfulNode.kind_emptyMapping, LawfulNode.untagged_emptyMapping]

@[simp] theorem asMapping_null : asMapping (null : α) = emptyMapping :=
  asMapping_of_ne (by simp)

theorem widened_of_ne {node : α} (h : kind node ≠ .sequence) (position : Nat) :
    widened node position = List.replicate (position + 1) null := by
  simp [widened, items?_eq_none h]

theorem getD_widened_of_ne {node : α} (h : kind node ≠ .sequence) (position index : Nat) :
    (widened node position).getD index null = null := by
  rw [getD_widened, items?_eq_none h, Option.getD_none, List.getD_nil]

/-- Of two widenings only the longer one counts. -/
theorem widened_widened (node : α) (position other : Nat) :
    widened (ofItems (widened node position)) other = widened node (max position other) := by
  rw [widened_of_items? (LawfulNode.items?_ofItems _), widened, widened, List.append_assoc,
    List.replicate_append_replicate]
  congr 2
  simp only [List.length_append, List.length_replicate]
  omega

theorem widened_set {items : List α} {index : Nat} (h : index < items.length) (value : α)
    (position : Nat) :
    widened (ofItems (items.set index value)) position
      = (widened (ofItems items) position).set index value := by
  rw [widened_of_items? (LawfulNode.items?_ofItems _),
    widened_of_items? (LawfulNode.items?_ofItems _), List.length_set, List.set_append_left _ _ h]

end Node

/-! ## Writing again -/

namespace Node

variable {α : Type} [Node α] [OverwritableNode α]

@[simp] theorem untagged_asMapping (node : α) : untagged (asMapping node) = asMapping node := by
  unfold asMapping
  split
  · exact OverwritableNode.untagged_untagged node
  · exact LawfulNode.untagged_emptyMapping

/-- What a write of a field leaves behind is a mapping to write into as it is. -/
theorem asMapping_putField (node : α) (name : String) (value : α) :
    asMapping (putField (asMapping node) name value) = putField (asMapping node) name value := by
  rw [asMapping, if_pos (LawfulNode.kind_putField name value (kind_asMapping node))]
  exact OverwritableNode.untagged_putField name value (kind_asMapping node)
    (untagged_asMapping node)

end Node

end Dotpath
