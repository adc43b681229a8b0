import Dotpath.Proofs.Access.Formats
import Dotpath.Proofs.Access.ReadWrite

/-!
# The shape that a write leaves

At every node that it leads through, a write leaves the container that its next step asks for. A
container that was there keeps all that the step does not lead to, one of the other kind does not,
and a sequence is as long as it was or as the step needs.

Results:
1. `writtenAt_widened`, `written_putField`: how the items and the entries of a container change.
2. `shape_after_write`: what a write leaves at each node on its way.
-/

namespace Dotpath

open Node Dotpath.Path

/-! ## Items -/

section Items

variable {α : Type} [Node α]

/-- How the items of a sequence change when the one at `position` is written: the others stay, and
nulls fill the gap between them and a position beyond the end. -/
structure WrittenAt (position : Nat) (before after : List α) : Prop where
  length : after.length = max before.length (position + 1)
  kept : ∀ index < before.length, index ≠ position → after[index]? = before[index]?
  padded : ∀ index, before.length ≤ index → index < position → after[index]? = some null

theorem writtenAt_widened (node : α) (position : Nat) (value : α) :
    WrittenAt position ((items? node).getD []) ((widened node position).set position value) where
  length := by
    simp only [widened, List.length_set, List.length_append, List.length_replicate]
    omega
  kept index hlt hne := by
    rw [List.getElem?_set_ne hne.symm, widened, List.getElem?_append_left hlt]
  padded index hle hlt := by
    rw [List.getElem?_set_ne (Nat.ne_of_gt hlt), widened, List.getElem?_append_right hle,
      List.getElem?_replicate_of_lt (by omega)]

end Items

/-! ## Entries -/

def Yaml.entries? : Yaml → Option (List (Yaml × Yaml))
  | mapping entries => some entries
  | _ => none

def Json.entries? : Json → Option (List (String × Json))
  | object fields => some fields
  | _ => none

namespace Format

/-- The keys of entries. -/
abbrev Key : Format → Type
  | yaml => Yaml
  | json => String

/-- The key that a name makes where there is none for it. -/
def keyOf : (format : Format) → String → format.Key
  | yaml, name => Yaml.string name
  | json, name => name

/-- The entries of a mapping without a tag. -/
def entries? : (format : Format) → format.Tree → Option (List (format.Key × format.Tree))
  | yaml, tree => Yaml.entries? tree
  | json, tree => Json.entries? tree

/-- What picks the entry that `name` addresses: its first match is that entry. -/
def addresses : (format : Format) → List (format.Key × format.Tree) → String →
    format.Key × format.Tree → Bool
  | yaml, entries, name, entry => Yaml.addresses entries name entry
  | json, _, name, entry => entry.1 == name

/-- How the entries of a mapping change when the field `name` is written. All entries that are not
its own keep their keys and values, and their order. -/
inductive Written (format : Format) (name : String) (value : format.Tree) :
    List (format.Key × format.Tree) → List (format.Key × format.Tree) → Prop
  /-- The entry that the name addresses takes the value. -/
  | replaced {before after : List (format.Key × format.Tree)} {key : format.Key}
      {old : format.Tree} :
      (∀ entry ∈ before, format.addresses (before ++ (key, old) :: after) name entry = false) →
      format.addresses (before ++ (key, old) :: after) name (key, old) = true →
      Written format name value (before ++ (key, old) :: after) (before ++ (key, value) :: after)
  /-- The name addresses no entry, and one is added: at the end, where the order is free. -/
  | added {entries before after : List (format.Key × format.Tree)} :
      (∀ entry ∈ entries, format.addresses entries name entry = false) →
      entries = before ++ after → (format = .yaml → after = []) →
      Written format name value entries (before ++ (format.keyOf name, value) :: after)

theorem written_putEntry (name : String) (value : Yaml) (entries : List (Yaml × Yaml)) :
    Written .yaml name value entries (Yaml.putEntry name value entries) := by
  rcases Yaml.putEntry_cases name entries with
    ⟨before, entry, after, rfl, hbefore, hentry, hput⟩ | ⟨hnone, hput⟩
  · rw [hput]
    exact .replaced hbefore hentry
  · rw [hput]
    exact .added hnone (List.append_nil entries).symm fun _ => rfl

theorem written_insert {fields : List (String × Json)} (h : Entries.Sorted fields) (name : String)
    (value : Json) : Written .json name value fields (Entries.insert name value fields) := by
  rcases Entries.insert_cases h name with
    ⟨before, old, after, rfl, hinsert⟩ | ⟨habsent, before, after, rfl, hinsert⟩
  · rw [hinsert]
    refine .replaced (fun entry hentry => ?_) (beq_self_eq_true name)
    have hlt : entry.1 < name := (List.pairwise_append.1 h).2.2 entry hentry _ List.mem_cons_self
    exact beq_false_of_ne (String.ne_of_lt hlt)
  · rw [hinsert]
    exact .added (fun entry hentry => beq_false_of_ne (habsent entry hentry)) rfl nofun

theorem written_putField (format : Format) {node : format.Tree} (h : format.Ordered node)
    (hkind : kind node = .mapping) (name : String) (value : format.Tree) :
    ∃ before after, format.entries? (untagged node) = some before ∧
      format.entries? (putField (untagged node) name value) = some after ∧
      format.Written name value before after := by
  cases format with
  | yaml =>
    obtain ⟨entries, hentries⟩ := Yaml.exists_untagged hkind
    have huntagged : untagged node = Yaml.mapping entries := hentries
    rw [huntagged, Yaml.putField_mapping]
    exact ⟨entries, _, rfl, rfl, written_putEntry name value entries⟩
  | json =>
    obtain ⟨fields, rfl⟩ := Json.exists_object hkind
    cases h with
    | object hsorted _ =>
      refine ⟨fields, _, rfl, ?_, written_insert hsorted name value⟩
      exact congrArg Json.entries? (Json.putField_eq (.object fields) name value)

theorem entries?_untagged_of_ne (format : Format) {node : format.Tree}
    (h : kind node ≠ .mapping) : format.entries? (untagged node) = none := by
  cases format with
  | yaml =>
    have hkind : (Yaml.untagged node).kind ≠ .mapping := by rwa [Yaml.kind_untagged]
    change Yaml.entries? (Yaml.untagged node) = none
    cases huntagged : Yaml.untagged node with
    | mapping entries => exact absurd (congrArg Yaml.kind huntagged) hkind
    | _ => rfl
  | json =>
    cases node with
    | object fields => exact absurd rfl h
    | _ => rfl

theorem entries?_putField_emptyMapping (format : Format) (name : String) (value : format.Tree) :
    format.entries? (putField emptyMapping name value) = some [(format.keyOf name, value)] := by
  cases format <;> rfl

/-! ## Containers -/

/-- The container `node` that a write leaves where it takes a step, with `child` where the step
leads. `held` is what a read found there before, if anything. What was there counts if it is a
container of the same kind; then the others of its items or entries are still there. -/
def Shaped (format : Format) (held : Option format.Tree) (child node : format.Tree) :
    Accessor → Prop
  | .field name => ∃ entries, format.entries? node = some entries ∧
      match held.bind fun old => format.entries? (untagged old) with
      | some before => format.Written name child before entries
      | none => entries = [(format.keyOf name, child)]
  | .index position => ∃ items, node = ofItems items ∧
      WrittenAt position ((held.bind items?).getD []) items

theorem shaped_put (format : Format) {node : format.Tree} (h : format.Ordered node)
    (accessor : Accessor) (child : format.Tree) :
    format.Shaped (some node) child (put node accessor child) accessor := by
  cases accessor with
  | field name =>
    by_cases hkind : kind node = .mapping
    · obtain ⟨before, after, hbefore, hafter, hwritten⟩ := format.written_putField h hkind name child
      refine ⟨after, ?_, ?_⟩
      · rw [put, asMapping, if_pos hkind, hafter]
      · rw [Option.bind_some, hbefore]
        exact hwritten
    · refine ⟨[(format.keyOf name, child)], ?_, ?_⟩
      · rw [put, asMapping_of_ne hkind, entries?_putField_emptyMapping]
      · rw [Option.bind_some, format.entries?_untagged_of_ne hkind]
  | index position => exact ⟨_, rfl, writtenAt_widened node position child⟩

theorem shaped_put_of_isFresh (format : Format) {node : format.Tree} (h : IsFresh node)
    (accessor : Accessor) (child : format.Tree) :
    format.Shaped none child (put node accessor child) accessor := by
  cases accessor with
  | field name =>
    refine ⟨_, ?_, rfl⟩
    rw [put, asMapping_of_isFresh h, entries?_putField_emptyMapping]
  | index position =>
    have hwritten := writtenAt_widened node position child
    rw [items?_eq_none (kind_ne_of_isFresh h)] at hwritten
    exact ⟨_, rfl, hwritten⟩

end Format

/-- The shape left by a write. Wherever a write leads through, it leaves a container without a tag,
of the kind that its next step asks for. A sequence has its items, nulls in the gap to a position
beyond its end, and no more than the step needs. A mapping has its entries, and at most one more. Of
a node of another kind nothing is left. -/
theorem shape_after_write (format : Format) {root : format.Tree} (h : format.Ordered root)
    (value : format.Tree) (shared rest : Path) (accessor : Accessor) :
    ∃ node child,
      shared.get ((shared ++ accessor :: rest).set root value) = .ok node ∧
      (shared ++ [accessor]).get ((shared ++ accessor :: rest).set root value) = .ok child ∧
      format.Shaped (shared.get root).toOption child node accessor := by
  obtain ⟨child, hread⟩ : ∃ child, ∀ further : Path,
      (shared ++ further).get ((shared ++ accessor :: rest).set root value)
        = getFrom (put (shared.reached root) accessor child) shared further :=
    ⟨_, fun further => by rw [Path.getFrom_set_parting, set_cons]⟩
  refine ⟨put (shared.reached root) accessor child, child, ?_, ?_, ?_⟩
  · have hnode := hread []
    rwa [List.append_nil] at hnode
  · rw [hread, getFrom_cons, step_put_self]
    rfl
  · cases hheld : shared.get root with
    | ok found =>
      have hfound := format.inherited_ordered.reached h shared
      rw [reached_of_getFrom hheld] at hfound ⊢
      exact format.shaped_put hfound accessor _
    | error fault => exact format.shaped_put_of_isFresh (isFresh_reached hheld) accessor _

/-- A sequence of hosts that has a tag, and so has one of its items. -/
def hostsDocument : Yaml :=
  .mapping [(.string "hosts",
    .tagged ⟨"set"⟩ (.sequence [.string "a", .tagged ⟨"old"⟩ (.string "b")]))]

/-- A write past the end of a sequence, and one of a field that an object does not have. -/
theorem shape_after_write_hosts :
    Format.Ordered .yaml hostsDocument ∧
    (∃ items, Path.get (α := Format.yaml.Tree) [.field "hosts"]
        (Path.set [.field "hosts", .index 3] hostsDocument (Yaml.string "d"))
      = .ok (Yaml.sequence items) ∧
      items.length = 4 ∧ items[1]? = some (.tagged ⟨"old"⟩ (.string "b")) ∧
      items[2]? = some .null) ∧
    Format.Ordered .json serverTree ∧
    Path.get (α := Format.json.Tree) [.field "server"]
        (Path.set [.field "server", .field "base", .index 1] serverTree (Json.bool true))
      = .ok (Json.object [("base", .array [.null, .bool true]), ("host", .string "h")]) ∧
    Format.Written .json "base" (Json.array [.null, .bool true]) [("host", Json.string "h")]
      [("base", Json.array [.null, .bool true]), ("host", Json.string "h")] := by
  refine ⟨trivial, ?_, ordered_serverTree, rfl, ?_⟩
  · obtain ⟨node, child, hnode, -, items, rfl, hitems⟩ :=
      @shape_after_write .yaml hostsDocument trivial (Yaml.string "d") [.field "hosts"] []
        (.index 3)
    exact ⟨items, hnode, hitems.length, hitems.kept 1 (by decide) (by decide),
      hitems.padded 2 (by decide) (by decide)⟩
  · obtain ⟨node, child, hnode, hchild, entries, hentries, hwritten⟩ :=
      shape_after_write .json ordered_serverTree (Json.bool true) [.field "server"] [.index 1]
        (.field "base")
    obtain rfl := Except.ok.inj hnode
    obtain rfl := Except.ok.inj hchild
    obtain rfl := Option.some.inj hentries
    exact hwritten

end Dotpath
