import Dotpath.Proofs.Access.Write
import Dotpath.Proofs.Node.Trees

/-!
# Trees up to the order of entries

Entries of a YAML mapping have an order, which a field that is added extends at the end. Trees that
hold the same but were built in another order differ in the order of entries only, at any depth.

Results: `put_congr` and `set_congr`, a write of values that differ in the order of entries only
leaves trees behind that differ in the order of entries only.
-/

namespace Dotpath.Yaml

open Dotpath.Path

/-- The two trees differ at most in the order of mapping entries, at whatever depth. Keys are
compared as they are. -/
inductive EqUpToOrder : Yaml → Yaml → Prop
  | refl (tree : Yaml) : EqUpToOrder tree tree
  | trans {a b c : Yaml} : EqUpToOrder a b → EqUpToOrder b c → EqUpToOrder a c
  | reorder {entries others : List (Yaml × Yaml)} : entries.Perm others →
      EqUpToOrder (mapping entries) (mapping others)
  | entry {a b : Yaml} (before : List (Yaml × Yaml)) (key : Yaml) (after : List (Yaml × Yaml)) :
      EqUpToOrder a b →
      EqUpToOrder (mapping (before ++ (key, a) :: after)) (mapping (before ++ (key, b) :: after))
  | item {a b : Yaml} (before after : List Yaml) : EqUpToOrder a b →
      EqUpToOrder (sequence (before ++ a :: after)) (sequence (before ++ b :: after))
  | tagged {a b : Yaml} (tag : Tag) : EqUpToOrder a b → EqUpToOrder (tagged tag a) (tagged tag b)

/-- A write of a field works on the entries of a mapping without a tag. -/
theorem exists_asMapping (node : Yaml) : ∃ entries, Node.asMapping node = mapping entries := by
  by_cases h : node.kind = .mapping
  · obtain ⟨entries, hentries⟩ := exists_untagged h
    exact ⟨entries, (if_pos h).trans hentries⟩
  · exact ⟨[], Node.asMapping_of_ne h⟩

theorem put_congr (node : Yaml) (accessor : Accessor) {a b : Yaml} (h : EqUpToOrder a b) :
    EqUpToOrder (put node accessor a) (put node accessor b) := by
  cases accessor with
  | field name =>
    obtain ⟨entries, hentries⟩ := exists_asMapping node
    rw [put, put, hentries, putField_mapping, putField_mapping]
    rcases putEntry_cases name entries with ⟨before, entry, after, -, -, -, hput⟩ | ⟨-, hput⟩
    · rw [hput, hput]
      exact .entry before entry.1 after h
    · rw [hput, hput]
      exact .entry entries (string name) [] h
  | index position =>
    have hlt := Node.lt_length_widened node position
    rw [put, put, List.set_eq_take_append_cons_drop, List.set_eq_take_append_cons_drop,
      if_pos hlt, if_pos hlt]
    exact .item _ _ h

theorem set_congr (path : Path) (root : Yaml) {a b : Yaml} (h : EqUpToOrder a b) :
    EqUpToOrder (path.set root a) (path.set root b) := by
  induction path generalizing root with
  | nil => exact h
  | cons accessor rest ih =>
    rw [set_cons, set_cons]
    exact put_congr root accessor (ih (child root accessor))

end Dotpath.Yaml
