import Dotpath.Proofs.Access.Write
import Dotpath.Proofs.Node.Trees

/-!
# Reads after writes

What a write does to reads, for all trees of both formats and all chains of steps, whatever
containers the write creates, widens or replaces on its way.

Results:
1. `read_after_write`: along the path of a write, a read finds the value and what is below it.
2. `read_off_path`: a read that leaves the path of a write finds what it found before if it leaves
   for another place in the same container, and the wrong kind of container otherwise.
3. `write_through_read`: a write along two chains is a write along the first of what the second
   makes of the node that a read finds there, or of null where a read finds none.
-/

namespace Dotpath

namespace Path

variable {α : Type} [Node α] [LawfulNode α]

/-! ## Along the path -/

theorem get_set_self (path : Path) (root value : α) :
    path.get (path.set root value) = .ok value := by
  have h := getFrom_set_append path [] [] root value
  rw [List.append_nil] at h
  exact h

theorem get_append_set_iff (path rest : Path) (root value found : α) :
    (path ++ rest).get (path.set root value) = .ok found ↔ rest.get value = .ok found := by
  rw [get, getFrom_set_append]
  exact get_eq_ok_iff.symm

/-! ## Off the path -/

/-- Where two paths part, a read along one finds what the write along the other left there. -/
theorem getFrom_set_parting (shared path rest : Path) (root value : α) :
    (shared ++ rest).get ((shared ++ path).set root value)
      = getFrom (path.set (shared.reached root) value) shared rest := by
  rw [get, set_append, getFrom_set_append]
  rfl

theorem get_set_of_apart {root found : α} {shared rest : Path} {accessor other : Accessor}
    (hapart : accessor.Apart other) (h : (shared ++ other :: rest).get root = .ok found)
    (path : Path) (value : α) :
    (shared ++ other :: rest).get ((shared ++ accessor :: path).set root value) = .ok found := by
  rw [get, getFrom_append, List.nil_append] at h
  obtain ⟨node, hshared, hnode⟩ := bind_eq_ok.1 h
  obtain ⟨next, hstep, hrest⟩ := bind_eq_ok.1 hnode
  rw [getFrom_set_parting, reached_of_getFrom hshared, set_cons]
  exact bind_eq_ok.2 ⟨next, step_put_of_apart hapart hstep _, hrest⟩

theorem get_set_of_container_ne {accessor other : Accessor}
    (h : accessor.container ≠ other.container) (shared path rest : Path) (root value : α) :
    (shared ++ other :: rest).get ((shared ++ accessor :: path).set root value)
      = .error (.kindMismatch other.container accessor.container (place shared)) := by
  rw [getFrom_set_parting, set_cons, getFrom_cons, step_of_kind_ne (by rwa [kind_put]), kind_put]
  rfl

/-! ## Through a read -/

theorem set_append_get (path rest : Path) (root value : α) :
    (path ++ rest).set root value
      = path.set root (rest.set ((path.get root).toOption.getD Node.null) value) := by
  rw [set_append]
  cases h : path.get root with
  | ok found => rw [reached_of_getFrom h]; rfl
  | error fault => rw [set_of_isFresh (isFresh_reached h) (.inl rfl)]; rfl

end Path

/-! ## Both formats -/

/-- What is written is what is read: a read along the path of a write finds the value, its own tag
included, and a read that goes on from there finds what it finds in the value alone. -/
theorem read_after_write (format : Format) (root value : format.Tree) (path : Path) :
    path.get (path.set root value) = .ok value ∧
      ∀ (rest : Path) (found : format.Tree),
        (path ++ rest).get (path.set root value) = .ok found ↔ rest.get value = .ok found :=
  ⟨path.get_set_self root value, fun rest found => path.get_append_set_iff rest root value found⟩

/-- A write touches nothing off its path. The two paths share their first steps and then part: into
different places of one container, and what was read before is read again; or one by a name and the
other by a position, and the read finds the container that the write needed. -/
theorem read_off_path (format : Format) (root value : format.Tree) (shared path rest : Path)
    (accessor other : Accessor) :
    (accessor.Apart other → ∀ found : format.Tree,
      (shared ++ other :: rest).get root = .ok found →
      (shared ++ other :: rest).get ((shared ++ accessor :: path).set root value) = .ok found) ∧
    (accessor.container ≠ other.container →
      (shared ++ other :: rest).get ((shared ++ accessor :: path).set root value)
        = .error (.kindMismatch other.container accessor.container shared.place)) :=
  ⟨fun hapart _ h => Path.get_set_of_apart hapart h path value,
    fun h => Path.get_set_of_container_ne h shared path rest root value⟩

/-- Ports under number keys, below a tag, one of them with a tag of its own. -/
def portsDocument : Yaml :=
  .mapping [(.string "ports", .tagged ⟨"open"⟩ (.mapping [
    (.number (.int 80), .string "http"),
    (.number (.int 443), .tagged ⟨"secure"⟩ (.string "https"))]))]

theorem read_off_path_ports :
    (Accessor.field "80").Apart (.field "443") ∧
    Path.get (α := Format.yaml.Tree) [.field "ports", .field "443"] portsDocument
      = .ok (.tagged ⟨"secure"⟩ (.string "https")) ∧
    Path.get (α := Format.yaml.Tree) [.field "ports", .field "443"]
        (Path.set [.field "ports", .field "80", .index 1] portsDocument Yaml.null)
      = .ok (.tagged ⟨"secure"⟩ (.string "https")) ∧
    (Accessor.field "80").container ≠ (Accessor.index 0).container ∧
    Path.get (α := Format.yaml.Tree) [.field "ports", .index 0]
        (Path.set [.field "ports", .field "80", .index 1] portsDocument Yaml.null)
      = .error (.kindMismatch .sequence .mapping "ports") :=
  ⟨by decide, rfl,
    (read_off_path .yaml portsDocument Yaml.null [.field "ports"] [.index 1] []
      (.field "80") (.field "443")).1 (by decide) _ rfl,
    by decide,
    (read_off_path .yaml portsDocument Yaml.null [.field "ports"] [.index 1] []
      (.field "80") (.index 0)).2 (by decide)⟩

/-- Writes compose through reads. -/
theorem write_through_read (format : Format) (root value : format.Tree) (path rest : Path) :
    (path ++ rest).set root value
      = path.set root (rest.set ((path.get root).toOption.getD Node.null) value) :=
  path.set_append_get rest root value

end Dotpath
