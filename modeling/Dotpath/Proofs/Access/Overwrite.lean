import Dotpath.Proofs.Access.Formats
import Dotpath.Proofs.Access.ReadWrite

/-!
# Writing again and writing back

A write along a path that has been written already takes the same steps to the same places. So the
first of two writes leaves nothing behind, not even in the order of entries. A write of what a read
has found puts it back where it was. All that is lost are the tags of the nodes on the way, which
`Yaml.bareAlong` takes off.

Results:
1. `last_write_wins`: of two writes along one path only the second counts.
2. `write_back`: writing what was read changes nothing but the tags on the way.
-/

namespace Dotpath

open Node

/-! ## Writing again -/

namespace Path

variable {α : Type} [Node α] [OverwritableNode α]

theorem child_put_self (node : α) (accessor : Accessor) (value : α) :
    child (put node accessor value) accessor = value :=
  child_of_step_ok (step_put_self node accessor value [])

theorem put_put (node : α) (accessor : Accessor) (value other : α) :
    put (put node accessor value) accessor other = put node accessor other := by
  cases accessor with
  | field name =>
    rw [put, put, put, asMapping_putField]
    exact OverwritableNode.putField_putField name value other (kind_asMapping node)
      (untagged_asMapping node)
  | index position =>
    have hlt : position < ((widened node position).set position value).length := by
      rw [List.length_set]
      exact lt_length_widened node position
    rw [put, put, put, widened_of_lt (LawfulNode.items?_ofItems _) hlt, List.set_set]

theorem set_set (path : Path) (root value other : α) :
    path.set (path.set root value) other = path.set root other := by
  induction path generalizing root with
  | nil => rfl
  | cons accessor rest ih =>
    rw [set_cons, set_cons, set_cons, child_put_self, ih, put_put]

end Path

/-- The last write wins outright: what an earlier one along the same path has made on its way, and
whatever it has written, is gone, and no entry has moved. -/
theorem last_write_wins (format : Format) (root value other : format.Tree) (path : Path) :
    path.set (path.set root value) other = path.set root other :=
  path.set_set root value other

/-! ## Writing back -/

namespace Yaml

open Dotpath.Path

/-- The tree without the tags of the nodes that `path` leads through. The node that it leads to is
none of them, and all else is as it was. -/
def bareAlong : Path → Yaml → Yaml
  | [], tree => tree
  | .field name :: rest, tree =>
    match tree.untagged with
    | mapping entries =>
      mapping (entries.modify (entries.findIdx (addresses entries name))
        fun entry => (entry.1, bareAlong rest entry.2))
    | other => other
  | .index position :: rest, tree =>
    match tree.untagged with
    | sequence items => sequence (items.modify position (bareAlong rest))
    | other => other

theorem modify_findIdx_of_split {test : Yaml × Yaml → Bool} {before : List (Yaml × Yaml)}
    {entry : Yaml × Yaml} (hbefore : ∀ e ∈ before, test e = false) (hentry : test entry = true)
    (after : List (Yaml × Yaml)) (f : Yaml × Yaml → Yaml × Yaml) :
    (before ++ entry :: after).modify ((before ++ entry :: after).findIdx test) f
      = before ++ f entry :: after := by
  induction before with
  | nil => simp [List.findIdx_cons, hentry]
  | cons head rest ih =>
    obtain ⟨hhead, hrest⟩ := List.forall_mem_cons.1 hbefore
    simp [List.findIdx_cons, hhead, ih hrest]

theorem untagged_of_items? {node : Yaml} {items : List Yaml} (h : node.items? = some items) :
    node.untagged = sequence items := by
  fun_induction untagged node with
  | case1 tag value ih => exact ih h
  | case2 node => cases node <;> simp_all [items?]

/-- Where a step leads somewhere, a write puts the new child in the place of the old one and takes
the tags off the container. -/
theorem put_bareAlong {node found : Yaml} {walked : Path} {accessor : Accessor}
    (h : step node walked accessor = .ok found) (rest : Path) :
    put node accessor (bareAlong rest found) = bareAlong (accessor :: rest) node := by
  cases accessor with
  | field name =>
    obtain ⟨hkind, hfound⟩ := step_field_eq_ok.1 h
    obtain ⟨entries, hentries⟩ := exists_untagged hkind
    have hmapping : Node.asMapping node = mapping entries := (if_pos hkind).trans hentries
    have hfield : (mapping entries).field? name = some found := by
      rw [← hentries, field?_untagged]
      exact hfound
    obtain ⟨entry, hentry, rfl⟩ := Option.map_eq_some_iff.1 hfield
    obtain ⟨hmatch, before, after, hsplit, hskip⟩ := List.find?_eq_some_iff_append.1 hentry
    have hbefore : ∀ e ∈ before, addresses entries name e = false := by simpa using hskip
    rw [put, hmapping, putField_mapping, putEntry, bareAlong, hentries]
    dsimp only
    -- The test stays that of the whole mapping when its entries are taken apart.
    generalize addresses entries name = test at hmatch hbefore
    subst hsplit
    rw [replaceFirst_of_split hbefore hmatch, modify_findIdx_of_split hbefore hmatch]
    rfl
  | index position =>
    obtain ⟨items, hitems, hfound⟩ := step_index_eq_ok.1 h
    obtain ⟨hlt, rfl⟩ := List.getElem?_eq_some_iff.1 hfound
    rw [put, Node.widened_of_lt hitems hlt, bareAlong, untagged_of_items? hitems]
    exact congrArg sequence (List.modify_eq_set_get (bareAlong rest) hlt).symm

end Yaml

namespace Json

open Dotpath.Path

theorem put_of_step {json found : Json} {walked : Path} {accessor : Accessor} (h : json.Ordered)
    (hstep : step json walked accessor = .ok found) : put json accessor found = json := by
  cases accessor with
  | field name =>
    obtain ⟨hkind, hfound⟩ := step_field_eq_ok.1 hstep
    obtain ⟨fields, rfl⟩ := exists_object hkind
    cases h with
    | object hsorted _ =>
      rw [put, putField_eq]
      exact congrArg object (Entries.insert_of_find? hsorted hfound)
  | index position =>
    obtain ⟨items, hitems, hfound⟩ := step_index_eq_ok.1 hstep
    obtain rfl := eq_array hitems
    obtain ⟨hlt, rfl⟩ := List.getElem?_eq_some_iff.1 hfound
    rw [put, Node.widened_of_lt hitems hlt, List.set_getElem_self]
    rfl

end Json

namespace Format

open Dotpath.Path

/-- The tree without the tags on the way along `path`. There are none in JSON. -/
def bareAlong : (format : Format) → Path → format.Tree → format.Tree
  | yaml, path, tree => Yaml.bareAlong path tree
  | json, _, tree => tree

theorem put_bareAlong (format : Format) {node found : format.Tree} {walked : Path}
    {accessor : Accessor} (h : format.Ordered node) (hstep : step node walked accessor = .ok found)
    (rest : Path) :
    put node accessor (format.bareAlong rest found) = format.bareAlong (accessor :: rest) node := by
  cases format with
  | yaml => exact Yaml.put_bareAlong hstep rest
  | json => exact Json.put_of_step h hstep

theorem set_of_getFrom (format : Format) {root found : format.Tree} {walked path : Path}
    (h : format.Ordered root) (hget : getFrom root walked path = .ok found) :
    path.set root found = format.bareAlong path root := by
  induction path generalizing root walked with
  | nil =>
    obtain rfl := Except.ok.inj hget
    cases format <;> rfl
  | cons accessor rest ih =>
    obtain ⟨next, hstep, hrest⟩ := bind_eq_ok.1 hget
    have hnext := format.inherited_ordered.child h accessor
    rw [child_of_step_ok hstep] at hnext
    rw [set_cons, child_of_step_ok hstep, ih hnext hrest]
    exact format.put_bareAlong h hstep rest

end Format

/-- Writing back what was read takes the tags off the nodes on the way to it and changes nothing
else: entries keep their order, and the value keeps its tag. A JSON tree does not change at all. -/
theorem write_back (path : Path) :
    (∀ root found : Yaml, path.get root = .ok found →
      path.set root found = root.bareAlong path) ∧
    ∀ root found : Json, root.Ordered → path.get root = .ok found → path.set root found = root :=
  ⟨fun _ _ hget => Format.set_of_getFrom .yaml trivial hget,
    fun _ _ h hget => Format.set_of_getFrom .json h hget⟩

/-- Ports of a document that has a tag of its own. -/
def taggedPorts : Yaml :=
  .tagged ⟨"conf"⟩ portsDocument

theorem write_back_ports :
    Path.get [.field "ports", .field "443"] taggedPorts
      = .ok (.tagged ⟨"secure"⟩ (.string "https")) ∧
    Path.set [.field "ports", .field "443"] taggedPorts (.tagged ⟨"secure"⟩ (.string "https"))
      = .mapping [(.string "ports", .mapping [
          (.number (.int 80), .string "http"),
          (.number (.int 443), .tagged ⟨"secure"⟩ (.string "https"))])] ∧
    serverTree.Ordered ∧
    Path.get [.field "server", .field "host"] serverTree = .ok (.string "h") ∧
    Path.set [.field "server", .field "host"] serverTree (.string "h") = serverTree :=
  ⟨rfl, (write_back _).1 taggedPorts _ rfl, ordered_serverTree, rfl,
    (write_back _).2 serverTree _ ordered_serverTree rfl⟩

end Dotpath
