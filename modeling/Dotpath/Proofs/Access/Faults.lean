import Dotpath.Proofs.Access.Shape
import Dotpath.Proofs.Path.Render

/-!
# Where a read fails

A read takes its steps one after the other and fails at the first that leads nowhere. Its error says
what was missing there: an entry, an item, or a container of the kind that the step is taken in.

Results:
1. `step_eq_error_iff`, `exists_step_iff`: which steps lead nowhere, and with which error.
2. `getFrom_eq_error_iff`: a read fails where one of its steps does.
3. `read_halts_at_first_fault`: the one step that a read comes to a halt at, its error, and what the
   place named there stands for.
-/

namespace Dotpath

open Node Dotpath.Path

/-! ## One step -/

namespace Format

/-- The step leads somewhere from `node`: to the entry that a name addresses, or to an item. Tags
are looked through. -/
def Leads (format : Format) (node : format.Tree) : Accessor → Prop
  | .field name => ∃ entries, format.entries? (untagged node) = some entries ∧
      ∃ entry ∈ entries, format.addresses entries name entry = true
  | .index position => ∃ items, items? node = some items ∧ position < items.length

/-- What is wrong with a step from `node`, which stands at the end of `walked`. -/
inductive Fault (format : Format) (walked : Path) (node : format.Tree) :
    Accessor → AccessError → Prop
  /-- A mapping has no entry that the name addresses. -/
  | noEntry {name : String} {entries : List (format.Key × format.Tree)} :
      format.entries? (untagged node) = some entries →
      (∀ entry ∈ entries, format.addresses entries name entry = false) →
      Fault format walked node (.field name) (.propertyNotFound name)
  /-- A sequence does not reach to the position. -/
  | noItem {position : Nat} {items : List format.Tree} :
      items? node = some items → items.length ≤ position →
      Fault format walked node (.index position) (.indexOutOfRange position items.length)
  /-- The step needs a container of another kind. -/
  | otherKind {accessor : Accessor} : kind node ≠ accessor.container →
      Fault format walked node accessor
        (.kindMismatch accessor.container (kind node) walked.place)

theorem exists_entries (format : Format) {node : format.Tree} (h : kind node = .mapping) :
    ∃ entries, format.entries? (untagged node) = some entries := by
  cases format with
  | yaml =>
    obtain ⟨entries, hentries⟩ := Yaml.exists_untagged h
    exact ⟨entries, congrArg Yaml.entries? hentries⟩
  | json =>
    obtain ⟨fields, rfl⟩ := Json.exists_object h
    exact ⟨fields, rfl⟩

theorem kind_of_entries? (format : Format) {node : format.Tree}
    {entries : List (format.Key × format.Tree)}
    (h : format.entries? (untagged node) = some entries) : kind node = .mapping := by
  by_contra hkind
  rw [format.entries?_untagged_of_ne hkind] at h
  exact nomatch h

theorem field?_of_entries? (format : Format) {node : format.Tree}
    {entries : List (format.Key × format.Tree)}
    (h : format.entries? (untagged node) = some entries) (name : String) :
    field? node name = (entries.find? (format.addresses entries name)).map (·.2) := by
  have hkind := format.kind_of_entries? h
  cases format with
  | yaml =>
    obtain ⟨entries', hentries⟩ := Yaml.exists_untagged hkind
    obtain rfl := Option.some.inj ((congrArg Yaml.entries? hentries).symm.trans h)
    exact (Yaml.field?_untagged node name).symm.trans (congrArg (Yaml.field? · name) hentries)
  | json =>
    obtain ⟨fields, rfl⟩ := Json.exists_object hkind
    obtain rfl := Option.some.inj h
    exact Entries.find?_eq name fields

theorem leads_field_iff (format : Format) {node : format.Tree} {name : String} :
    format.Leads node (.field name) ↔ kind node = .mapping ∧ (field? node name).isSome := by
  constructor
  · rintro ⟨entries, hentries, hmatch⟩
    refine ⟨format.kind_of_entries? hentries, ?_⟩
    rwa [format.field?_of_entries? hentries, Option.isSome_map, List.find?_isSome]
  · rintro ⟨hkind, hsome⟩
    obtain ⟨entries, hentries⟩ := format.exists_entries hkind
    rw [format.field?_of_entries? hentries, Option.isSome_map, List.find?_isSome] at hsome
    exact ⟨entries, hentries, hsome⟩

/-- A step can be taken exactly if it leads somewhere. -/
theorem exists_step_iff (format : Format) {node : format.Tree} {accessor : Accessor}
    (walked : Path) :
    (∃ child, step node walked accessor = .ok child) ↔ format.Leads node accessor := by
  cases accessor with
  | field name =>
    simp only [step_field_eq_ok, leads_field_iff, Option.isSome_iff_exists, exists_and_left]
  | index position =>
    simp only [step_index_eq_ok]
    constructor
    · rintro ⟨child, items, hitems, hchild⟩
      exact ⟨items, hitems, (List.getElem?_eq_some_iff.1 hchild).1⟩
    · rintro ⟨items, hitems, hlt⟩
      exact ⟨items[position], items, hitems, List.getElem?_eq_getElem hlt⟩

theorem step_of_fault (format : Format) {node : format.Tree} {walked : Path} {accessor : Accessor}
    {fault : AccessError} (h : format.Fault walked node accessor fault) :
    step node walked accessor = .error fault := by
  cases h with
  | @noEntry name entries hentries hnone =>
    have habsent : entries.find? (format.addresses entries name) = none :=
      List.find?_eq_none.2 fun entry hentry => by simp [hnone entry hentry]
    rw [step, if_pos (format.kind_of_entries? hentries), format.field?_of_entries? hentries,
      habsent]
    rfl
  | noItem hitems hle => simp [step, hitems, List.getElem?_eq_none hle]
  | otherKind hkind => exact step_of_kind_ne hkind walked

/-- A step that leads nowhere has one of the three faults. -/
theorem exists_fault (format : Format) {node : format.Tree} {accessor : Accessor}
    (h : ¬format.Leads node accessor) (walked : Path) :
    ∃ fault, format.Fault walked node accessor fault := by
  by_cases hkind : kind node = accessor.container
  · cases accessor with
    | field name =>
      obtain ⟨entries, hentries⟩ := format.exists_entries hkind
      refine ⟨_, .noEntry hentries fun entry hentry => ?_⟩
      rw [← Bool.not_eq_true]
      exact fun hmatch => h ⟨entries, hentries, entry, hentry, hmatch⟩
    | index position =>
      obtain ⟨items, hitems⟩ := Option.isSome_iff_exists.1 ((LawfulNode.isSome_items? node).2 hkind)
      exact ⟨_, .noItem hitems (Nat.not_lt.1 fun hlt => h ⟨items, hitems, hlt⟩)⟩
  · exact ⟨_, .otherKind hkind⟩

theorem step_eq_error_iff (format : Format) {node : format.Tree} {walked : Path}
    {accessor : Accessor} {fault : AccessError} :
    step node walked accessor = .error fault ↔ format.Fault walked node accessor fault := by
  constructor
  · intro h
    have hstuck : ¬format.Leads node accessor := by
      rw [← format.exists_step_iff walked]
      rintro ⟨child, hchild⟩
      exact nomatch h.symm.trans hchild
    obtain ⟨fault', hfault⟩ := format.exists_fault hstuck walked
    obtain rfl := Except.error.inj (h.symm.trans (format.step_of_fault hfault))
    exact hfault
  · exact format.step_of_fault

end Format

/-! ## A chain of steps -/

namespace Path

variable {α : Type} [Node α]

theorem split_of_getElem? {path : Path} {k : Nat} {accessor : Accessor}
    (h : path[k]? = some accessor) : path = path.take k ++ accessor :: path.drop (k + 1) := by
  obtain ⟨hlt, rfl⟩ := List.getElem?_eq_some_iff.1 h
  rw [← List.drop_eq_getElem_cons hlt, List.take_append_drop]

/-- A read ends with the error of the first step that has one. -/
theorem get_eq_error_of_step {root node : α} {path : Path} {k : Nat} {accessor : Accessor}
    {fault : AccessError} (hnext : path[k]? = some accessor)
    (hreached : get (path.take k) root = .ok node)
    (hfault : step node (path.take k) accessor = .error fault) : path.get root = .error fault := by
  have hread : getFrom root [] (path.take k ++ accessor :: path.drop (k + 1)) = .error fault := by
    rw [getFrom_append, ← get, hreached]
    show getFrom node ([] ++ path.take k) (accessor :: path.drop (k + 1)) = .error fault
    rw [getFrom_cons, List.nil_append, hfault]
    rfl
  rwa [← split_of_getElem? hnext] at hread

theorem exists_step_of_getFrom_eq_error {root : α} {walked path : Path} {fault : AccessError}
    (h : getFrom root walked path = .error fault) :
    ∃ k node accessor, path[k]? = some accessor ∧ getFrom root walked (path.take k) = .ok node ∧
      step node (walked ++ path.take k) accessor = .error fault := by
  induction path generalizing root walked with
  | nil => exact nomatch h
  | cons first rest ih =>
    rw [getFrom_cons] at h
    cases hstep : step root walked first with
    | error stop =>
      rw [hstep] at h
      refine ⟨0, root, first, rfl, rfl, ?_⟩
      rw [List.take_zero, List.append_nil, hstep]
      exact h
    | ok child =>
      rw [hstep] at h
      obtain ⟨k, node, accessor, hnext, hreached, hfault⟩ := ih h
      refine ⟨k + 1, node, accessor, hnext, ?_, ?_⟩
      · rw [List.take_succ_cons, getFrom_cons, hstep]
        exact hreached
      · rw [List.take_succ_cons, List.append_cons]
        exact hfault

theorem get_append_eq_ok {root found : α} (path rest : Path) :
    (path ++ rest).get root = .ok found
      ↔ ∃ node, path.get root = .ok node ∧ rest.get node = .ok found := by
  rw [get, getFrom_append, List.nil_append, bind_eq_ok]
  constructor
  · rintro ⟨node, hnode, hfound⟩
    exact ⟨node, hnode, get_eq_ok_iff.2 hfound⟩
  · rintro ⟨node, hnode, hfound⟩
    exact ⟨node, hnode, get_eq_ok_iff.1 hfound⟩

end Path

namespace Format

/-- A read of `path` comes to a halt: its first `k` steps lead to `node`, and from there the next
step, `accessor`, leads nowhere. -/
structure HaltsAt (format : Format) (root : format.Tree) (path : Path) (k : Nat)
    (node : format.Tree) (accessor : Accessor) : Prop where
  next : path[k]? = some accessor
  reached : Path.get (path.take k) root = .ok node
  stuck : ¬format.Leads node accessor

namespace HaltsAt

variable {format : Format} {root node : format.Tree} {path : Path} {k : Nat} {accessor : Accessor}

theorem get_eq_error_iff (h : format.HaltsAt root path k node accessor) (fault : AccessError) :
    path.get root = .error fault ↔ format.Fault (path.take k) node accessor fault := by
  obtain ⟨fault', hfault'⟩ := format.exists_fault h.stuck (path.take k)
  have hget := get_eq_error_of_step h.next h.reached (format.step_of_fault hfault')
  constructor
  · intro hfault
    obtain rfl := Except.error.inj (hfault.symm.trans hget)
    exact hfault'
  · exact fun hfault => get_eq_error_of_step h.next h.reached (format.step_of_fault hfault)

/-- No read passes the place where another one along the same way has come to a halt. -/
theorem le_of_get (h : format.HaltsAt root path k node accessor) {k' : Nat} {found : format.Tree}
    (hget : Path.get (path.take k') root = .ok found) : k' ≤ k := by
  by_contra hlt
  have hlt' : k < k' := Nat.not_le.1 hlt
  have hhalts : format.HaltsAt root (path.take k') k node accessor := by
    refine ⟨?_, ?_, h.stuck⟩
    · rw [List.getElem?_take_of_lt hlt', h.next]
    · rw [List.take_take, Nat.min_eq_left hlt'.le, h.reached]
  obtain ⟨fault, hfault⟩ := format.exists_fault h.stuck ((path.take k').take k)
  rw [(hhalts.get_eq_error_iff fault).2 hfault] at hget
  exact nomatch hget

end HaltsAt

theorem exists_haltsAt (format : Format) {root : format.Tree} {path : Path} {fault : AccessError}
    (h : path.get root = .error fault) :
    ∃ k node accessor, format.HaltsAt root path k node accessor := by
  obtain ⟨k, node, accessor, hnext, hreached, hfault⟩ := exists_step_of_getFrom_eq_error h
  refine ⟨k, node, accessor, hnext, hreached, fun hleads => ?_⟩
  obtain ⟨child, hchild⟩ := (format.exists_step_iff _).2 hleads
  exact nomatch hfault.symm.trans hchild

end Format

/-- What a message names a place by reads the node at that place, unless that is the root. -/
theorem getAt_place {α : Type} [Node α] {root node : α} {text : String} {path : Path}
    (h : parse text = .ok path) {k : Nat} (hk : k ≠ 0)
    (hreached : get (path.take k) root = .ok node) :
    parse (place (path.take k)) = .ok (path.take k) ∧
      getAt root (place (path.take k)) = .ok node := by
  obtain ⟨hne, hsteps⟩ := spellable_of_parse h
  have hsome : path.take k ≠ [] := by simp [hk, hne]
  have hplace : place (path.take k) = render (path.take k) := by
    rw [place, if_neg (by simpa using hsome)]
  have hparse : parse (place (path.take k)) = .ok (path.take k) := by
    rw [hplace, parse_render_iff]
    exact ⟨hsome, fun accessor haccessor => hsteps accessor (List.mem_of_mem_take haccessor)⟩
  exact ⟨hparse, getAt_eq_ok.2 ⟨_, hparse, hreached⟩⟩

/-- A read fails exactly if it comes to a halt at some step. There is only one such step, the error
is that of the step, and the place that it names stands for the node that the step was to be taken
from. A read along two chains goes on along the second from what the first leads to. -/
theorem read_halts_at_first_fault (format : Format) (root : format.Tree) :
    (∀ path : Path, (∃ fault, path.get root = .error fault) ↔
      ∃ k node accessor, format.HaltsAt root path k node accessor) ∧
    (∀ path k node accessor, format.HaltsAt root path k node accessor →
      (∀ k' node' accessor', format.HaltsAt root path k' node' accessor' → k' = k) ∧
      (∀ fault, Path.get path root = .error fault
        ↔ format.Fault (path.take k) node accessor fault) ∧
      ∀ text, parse text = .ok path →
        if k = 0 then place (path.take k) = "<root>" ∧ node = root
        else parse (place (path.take k)) = .ok (path.take k) ∧
          getAt root (place (path.take k)) = .ok node) ∧
    ∀ (path rest : Path) (found : format.Tree), (path ++ rest).get root = .ok found
      ↔ ∃ node, path.get root = .ok node ∧ rest.get node = .ok found := by
  refine ⟨fun path => ⟨?_, ?_⟩, fun path k node accessor h => ⟨?_, h.get_eq_error_iff, ?_⟩, ?_⟩
  · rintro ⟨fault, hfault⟩
    exact format.exists_haltsAt hfault
  · rintro ⟨k, node, accessor, h⟩
    obtain ⟨fault, hfault⟩ := format.exists_fault h.stuck (path.take k)
    exact ⟨fault, (h.get_eq_error_iff fault).2 hfault⟩
  · intro k' node' accessor' h'
    exact Nat.le_antisymm (h.le_of_get h'.reached) (h'.le_of_get h.reached)
  · intro text hparse
    split
    · next hzero =>
      subst hzero
      exact ⟨rfl, (Except.ok.inj h.reached).symm⟩
    · next hk => exact getAt_place hparse hk h.reached
  · exact fun path rest found => get_append_eq_ok path rest

/-- A port whose value is a string and not a sequence. -/
theorem read_halts_at_first_fault_ports :
    Format.HaltsAt .yaml portsDocument [.field "ports", .field "80", .index 1] 2
      (Yaml.string "http") (.index 1) ∧
    Path.get (α := Format.yaml.Tree) [.field "ports", .field "80", .index 1] portsDocument
      = .error (.kindMismatch .sequence .string "ports.80") ∧
    parse "ports.80[1]" = .ok [.field "ports", .field "80", .index 1] ∧
    parse "ports.80" = .ok [.field "ports", .field "80"] ∧
    getAt (α := Format.yaml.Tree) portsDocument "ports.80" = .ok (Yaml.string "http") := by
  have hhalts : Format.HaltsAt .yaml portsDocument [.field "ports", .field "80", .index 1] 2
      (Yaml.string "http") (.index 1) := by
    refine ⟨rfl, rfl, ?_⟩
    rintro ⟨items, hitems, -⟩
    exact nomatch hitems
  obtain ⟨-, hfault, hplace⟩ :=
    (read_halts_at_first_fault .yaml portsDocument).2.1 _ _ _ _ hhalts
  have hkind :
      kind (α := Format.yaml.Tree) (Yaml.string "http") ≠ (Accessor.index 1).container := by
    decide
  have hparse : parse "ports.80[1]" = .ok [.field "ports", .field "80", .index 1] := rfl
  exact ⟨hhalts, (hfault _).2 (.otherKind hkind), hparse, hplace "ports.80[1]" hparse⟩

end Dotpath
