import Dotpath.Proofs.Access.Formats
import Dotpath.Proofs.Access.Overwrite
import Dotpath.Proofs.Node.Slot

/-!
# Independent writes

Two writes whose paths part at two places of one container can change places. Up to there they lead
through the same nodes, and there each of them puts its own child into the container and leaves that
of the other alone. The order of the two decides only where new entries of a YAML mapping stand.

Results:
1. `child_put_of_apart`: what one step of a write goes on from is not changed by the other.
2. `ForgetsOrder.set_comm`: the two writes make the same tree, as far as a likeness that does not
   see the order of two new fields can tell.
3. `independent_writes_commute`: for JSON that is equality, for YAML the same up to the order of
   entries.
-/

namespace Dotpath

open Node

namespace Path

variable {α : Type} [Node α] [OverwritableNode α]

/-! ## Two steps into one container -/

theorem child_put_of_apart {accessor other : Accessor} (h : accessor.Apart other) (node value : α) :
    child (put node accessor value) other = child node other := by
  rcases h.cases with ⟨name, name', rfl, rfl, hname⟩ | ⟨position, position', rfl, rfl, hposition⟩
  · rw [put, child, asMapping_putField,
      LawfulNode.field?_putField name name' value (kind_asMapping node), if_neg hname, child]
  · rw [put, child, getD_widened, LawfulNode.items?_ofItems, Option.getD_some,
      List.getD_eq_getElem?_getD, List.getElem?_set_ne hposition, ← List.getD_eq_getElem?_getD,
      getD_widened, child, getD_widened]

/-- The sequence is widened to the further of the two positions, whichever is written first. -/
theorem put_index_comm {position position' : Nat} (h : position ≠ position')
    (node value latter : α) :
    put (put node (.index position) value) (.index position') latter
      = put (put node (.index position') latter) (.index position) value := by
  rw [put, put, put, put, widened_set (lt_length_widened node position),
    widened_set (lt_length_widened node position'), widened_widened, widened_widened,
    Nat.max_comm position', List.set_comm _ _ h]

/-! ## Two writes -/

/-- Up to where two writes part, the second finds what the first has left. -/
theorem set_append_set_append (shared path rest : Path) (root value latter : α) :
    set (shared ++ rest) (set (shared ++ path) root value) latter
      = set shared root (set rest (set path (reached shared root) value) latter) := by
  rw [set_append, set_append, reached_of_getFrom (get_set_self shared root _), set_set]

/-- Where two writes part, each goes on from the child that was there. -/
theorem set_cons_set_cons {accessor other : Accessor} (h : accessor.Apart other)
    (path rest : Path) (node value latter : α) :
    set (other :: rest) (set (accessor :: path) node value) latter
      = put (put node accessor (set path (child node accessor) value)) other
          (set rest (child node other) latter) := by
  rw [set_cons, set_cons, child_put_of_apart h]

end Path

open Dotpath.Path

/-- A likeness of trees that does not tell in which order two fields of a mapping were written. -/
structure ForgetsOrder {α : Type} [Node α] (R : α → α → Prop) : Prop where
  refl (node : α) : R node node
  set_congr (path : Path) (root : α) {a b : α} : R a b → R (path.set root a) (path.set root b)
  putField_comm {node : α} {name other : String} (value latter : α) :
    kind node = .mapping → untagged node = node → name ≠ other →
      R (putField (putField node name value) other latter)
        (putField (putField node other latter) name value)

namespace ForgetsOrder

variable {α : Type} [Node α] [OverwritableNode α] {R : α → α → Prop} (hR : ForgetsOrder R)

include hR

theorem put_comm {accessor other : Accessor} (h : accessor.Apart other) (node value latter : α) :
    R (put (put node accessor value) other latter)
      (put (put node other latter) accessor value) := by
  rcases h.cases with ⟨name, name', rfl, rfl, hname⟩ | ⟨position, position', rfl, rfl, hposition⟩
  · rw [put, put, put, put, asMapping_putField, asMapping_putField]
    exact hR.putField_comm value latter (kind_asMapping node) (untagged_asMapping node) hname.symm
  · rw [put_index_comm hposition]
    exact hR.refl _

theorem set_comm {accessor other : Accessor} (h : accessor.Apart other) (shared path rest : Path)
    (root value latter : α) :
    R ((shared ++ other :: rest).set ((shared ++ accessor :: path).set root value) latter)
      ((shared ++ accessor :: path).set ((shared ++ other :: rest).set root latter) value) := by
  rw [set_append_set_append, set_append_set_append, set_cons_set_cons h, set_cons_set_cons h.symm]
  exact hR.set_congr shared root (hR.put_comm h _ _ _)

end ForgetsOrder

theorem Yaml.forgetsOrder_eqUpToOrder : ForgetsOrder Yaml.EqUpToOrder where
  refl := .refl
  set_congr path root _ _ := Yaml.set_congr path root
  putField_comm value latter hkind huntagged hne := by
    obtain ⟨entries, rfl⟩ := Yaml.exists_mapping hkind huntagged
    rw [putField_mapping, putField_mapping, putField_mapping, putField_mapping]
    exact .reorder (putEntry_comm hne entries value latter)

theorem Json.forgetsOrder_eq : ForgetsOrder (α := Json) Eq where
  refl _ := rfl
  set_congr path root _ _ h := congrArg (path.set root) h
  putField_comm value latter hkind _ hne := by
    obtain ⟨fields, rfl⟩ := Json.exists_object hkind
    rw [putField_eq, putField_eq, putField_eq, putField_eq]
    exact congrArg object (Entries.insert_comm hne value latter fields)

/-- Writes that part at two fields or at two positions of one container can change places. In JSON
they make the same tree in either order, and in YAML the same up to the order of entries. -/
theorem independent_writes_commute {accessor other : Accessor} (h : accessor.Apart other)
    (shared path rest : Path) :
    (∀ root value latter : Yaml,
      Yaml.EqUpToOrder
        ((shared ++ other :: rest).set ((shared ++ accessor :: path).set root value) latter)
        ((shared ++ accessor :: path).set ((shared ++ other :: rest).set root latter) value)) ∧
    ∀ root value latter : Json,
      (shared ++ other :: rest).set ((shared ++ accessor :: path).set root value) latter
        = (shared ++ accessor :: path).set ((shared ++ other :: rest).set root latter) value :=
  ⟨Yaml.forgetsOrder_eqUpToOrder.set_comm h shared path rest,
    Json.forgetsOrder_eq.set_comm h shared path rest⟩

/-- In a document of ports, two new ones and the same in the other order. In a tree of servers, two
positions of a list that is not there yet. -/
theorem independent_writes_commute_ports :
    (Accessor.field "8080").Apart (.field "22") ∧
    Yaml.EqUpToOrder
      (.mapping [(.string "ports", .mapping [
        (.number (.int 80), .string "http"),
        (.number (.int 443), .tagged ⟨"secure"⟩ (.string "https")),
        (.string "8080", .string "proxy"), (.string "22", .string "ssh")])])
      (.mapping [(.string "ports", .mapping [
        (.number (.int 80), .string "http"),
        (.number (.int 443), .tagged ⟨"secure"⟩ (.string "https")),
        (.string "22", .string "ssh"), (.string "8080", .string "proxy")])]) ∧
    (Accessor.index 2).Apart (.index 0) ∧
    Path.set [.field "server", .field "base", .index 0]
        (Path.set [.field "server", .field "base", .index 2] serverTree (.bool true)) (.bool false)
      = Path.set [.field "server", .field "base", .index 2]
        (Path.set [.field "server", .field "base", .index 0] serverTree (.bool false))
        (.bool true) :=
  have hports : (Accessor.field "8080").Apart (.field "22") := by decide
  have hbase : (Accessor.index 2).Apart (.index 0) := by decide
  ⟨hports,
    (independent_writes_commute hports [.field "ports"] [] []).1 portsDocument
      (.string "proxy") (.string "ssh"),
    hbase,
    (independent_writes_commute hbase [.field "server", .field "base"] [] []).2 serverTree
      (.bool true) (.bool false)⟩

end Dotpath
