import Dotpath.Proofs.Access.Write
import Dotpath.Proofs.Dict
import Dotpath.Proofs.Node.Trees

/-!
# JSON trees in order

The fields of a JSON object are kept in the order of their names. `Json.Ordered` says so of all
objects of a tree, and writes keep it.

Results: `inherited_ordered` and with it `ordered_set`, and the same for trees of both formats
(`Format.Ordered`).
-/

namespace Dotpath

open Dotpath.Path

namespace Json

/-- The fields of every object, at any depth, are in the order of their names. -/
inductive Ordered : Json → Prop
  | null : Ordered null
  | bool (value : Bool) : Ordered (bool value)
  | number (value : Number) : Ordered (number value)
  | string (value : String) : Ordered (string value)
  | array {items : List Json} : (∀ item ∈ items, Ordered item) → Ordered (array items)
  | object {fields : List (String × Json)} : Entries.Sorted fields →
      (∀ field ∈ fields, Ordered field.2) → Ordered (object fields)

/-! ## Writes -/

theorem inherited_ordered : Inherited Ordered where
  null := .null
  emptyMapping := .object .nil (by simp)
  untagged h := h
  field hkind _ h hfound := by
    obtain ⟨fields, rfl⟩ := exists_object hkind
    cases h with
    | object _ hvalues => exact hvalues _ (Entries.mem_of_find? hfound)
  putField {_ value} name hkind _ h hvalue := by
    obtain ⟨fields, rfl⟩ := exists_object hkind
    rw [putField_eq]
    cases h with
    | object hsorted hvalues =>
      refine .object (hsorted.insert name value) fun field hfield => ?_
      rcases Entries.mem_insert hfield with rfl | hfield
      · exact hvalue
      · exact hvalues field hfield
  item h hitems := by
    obtain rfl := eq_array hitems
    cases h with
    | array hall => exact hall
  ofItems := .array

/-- A write into a tree whose objects are in order leaves them in order. -/
theorem ordered_set {json value : Json} (h : json.Ordered) (hvalue : value.Ordered) (path : Path) :
    (path.set json value).Ordered :=
  inherited_ordered.set h hvalue path

/-- What a write of a field works on. -/
theorem ordered_asMapping {json : Json} (h : json.Ordered) :
    ∃ fields, Node.asMapping json = object fields ∧ Entries.Sorted fields := by
  obtain ⟨fields, hfields⟩ := exists_object (Node.kind_asMapping json)
  have hordered := inherited_ordered.asMapping h
  rw [hfields] at hordered
  cases hordered with
  | object hsorted _ => exact ⟨fields, hfields, hsorted⟩

end Json

/-! ## Both formats -/

namespace Format

/-- Objects have their fields in order. Mappings can have theirs in any. -/
def Ordered : (format : Format) → format.Tree → Prop
  | yaml, _ => True
  | json, tree => Json.Ordered tree

theorem inherited_ordered (format : Format) : Inherited format.Ordered := by
  cases format with
  | yaml => constructor <;> intros <;> trivial
  | json => exact Json.inherited_ordered

end Format

end Dotpath
