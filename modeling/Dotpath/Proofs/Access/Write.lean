import Dotpath.Access
import Dotpath.Proofs.FirstFault
import Dotpath.Proofs.Node.Lawful

/-!
# Steps of a write

A write takes its path one step at a time. `Path.child` is the node that it goes on from, and
`Path.put` is the container that it leaves behind with the new child in place; `Path.set` is made of
the two (`set_cons`). What a read finds after a write is then a matter of single steps.

Results:
1. `step_put_self`, `step_put_of_apart`, `kind_put`: what a step finds after a step of a write.
2. `set_append`: a write along two chains is a write along the first of the write along the second.
3. `getFrom_set_append`: a read along the path of a write goes on from the value.
4. `reached_of_getFrom`, `isFresh_reached`: a write goes on from what a read finds, and from a fresh
   node where a read fails.
5. `Inherited.set`: what the operations on single nodes keep, whole writes keep.
-/

namespace Dotpath

open Node

namespace Accessor

/-- The kind of node that a step is taken in. -/
def container : Accessor → Kind
  | field _ => .mapping
  | index _ => .sequence

/-- Two steps that lead to different places in one container: fields of different names, or
different positions. -/
def Apart (a b : Accessor) : Prop :=
  a ≠ b ∧ a.container = b.container

instance (a b : Accessor) : Decidable (Apart a b) :=
  inferInstanceAs (Decidable (_ ∧ _))

theorem Apart.symm {accessor other : Accessor} (h : accessor.Apart other) :
    other.Apart accessor :=
  ⟨h.1.symm, h.2.symm⟩

theorem Apart.cases {accessor other : Accessor} (h : accessor.Apart other) :
    (∃ name name', accessor = .field name ∧ other = .field name' ∧ name' ≠ name) ∨
    ∃ position position', accessor = .index position ∧ other = .index position' ∧
      position ≠ position' := by
  obtain ⟨hne, hcontainer⟩ := h
  cases accessor with
  | field name =>
    cases other with
    | field name' => exact .inl ⟨name, name', rfl, rfl, fun heq => hne (by rw [heq])⟩
    | index position => exact nomatch hcontainer
  | index position =>
    cases other with
    | field name => exact nomatch hcontainer
    | index position' =>
      exact .inr ⟨position, position', rfl, rfl, fun heq => hne (by rw [heq])⟩

end Accessor

namespace Path

section Definitions

variable {α : Type} [Node α]

/-- What a write goes on from where there is nothing yet. -/
def fresh : Accessor → α
  | .field _ => emptyMapping
  | .index _ => null

/-- The node that a write goes on from after one step. -/
def child (node : α) : Accessor → α
  | .field name => (field? (asMapping node) name).getD emptyMapping
  | .index position => (widened node position).getD position null

/-- The container that a write leaves behind, with `value` where the step leads. -/
def put (node : α) (accessor : Accessor) (value : α) : α :=
  match accessor with
  | .field name => putField (asMapping node) name value
  | .index position => ofItems ((widened node position).set position value)

/-- The node that a write goes on from at the end of `path`. -/
def reached (path : Path) (node : α) : α :=
  path.foldl child node

/-- A node that no step can be taken from, and that every write replaces or fills in the same
way. -/
def IsFresh (node : α) : Prop :=
  node = null ∨ node = emptyMapping

end Definitions

section Steps

variable {α : Type} [Node α]

theorem set_cons (accessor : Accessor) (rest : Path) (node value : α) :
    set (accessor :: rest) node value
      = put node accessor (set rest (child node accessor) value) := by
  cases accessor <;> rfl

theorem reached_cons (accessor : Accessor) (rest : Path) (node : α) :
    reached (accessor :: rest) node = reached rest (child node accessor) := rfl

theorem isFresh_fresh (accessor : Accessor) : IsFresh (fresh accessor : α) := by
  cases accessor with
  | field name => exact .inr rfl
  | index position => exact .inl rfl

/-- A write along two chains is a write along the first of what the second makes of the node
reached. -/
theorem set_append (path rest : Path) (node value : α) :
    set (path ++ rest) node value = set path node (set rest (reached path node) value) := by
  induction path generalizing node with
  | nil => rfl
  | cons accessor path ih => rw [List.cons_append, set_cons, set_cons, ih, reached_cons]

theorem getFrom_cons (node : α) (walked : Path) (accessor : Accessor) (rest : Path) :
    getFrom node walked (accessor :: rest)
      = (step node walked accessor >>= fun next => getFrom next (walked ++ [accessor]) rest) := rfl

theorem step_field_eq_ok {node found : α} {walked : Path} {name : String} :
    step node walked (.field name) = .ok found
      ↔ kind node = .mapping ∧ field? node name = some found := by
  rw [step]
  split
  · next h => cases hfield : field? node name <;> simp [h]
  · next h => simp [h]

theorem step_index_eq_ok {node found : α} {walked : Path} {position : Nat} :
    step node walked (.index position) = .ok found
      ↔ ∃ items, items? node = some items ∧ items[position]? = some found := by
  rw [step]
  cases items? node with
  | none => simp
  | some items => cases hitem : items[position]? <;> simp [hitem]

/-- How far a read has come matters to its errors only. -/
theorem step_ok_of_step_ok {node found : α} {walked : Path} {accessor : Accessor}
    (h : step node walked accessor = .ok found) (other : Path) :
    step node other accessor = .ok found := by
  cases accessor with
  | field name => exact step_field_eq_ok.2 (step_field_eq_ok.1 h)
  | index position => exact step_index_eq_ok.2 (step_index_eq_ok.1 h)

theorem getFrom_ok_of_getFrom_ok {node found : α} {walked path : Path}
    (h : getFrom node walked path = .ok found) (other : Path) :
    getFrom node other path = .ok found := by
  induction path generalizing node walked other with
  | nil => exact h
  | cons accessor rest ih =>
    obtain ⟨next, hstep, hrest⟩ := bind_eq_ok.1 h
    exact bind_eq_ok.2 ⟨next, step_ok_of_step_ok hstep other, ih hrest _⟩

theorem get_eq_ok_iff {node found : α} {walked path : Path} :
    path.get node = .ok found ↔ getFrom node walked path = .ok found :=
  ⟨fun h => getFrom_ok_of_getFrom_ok h walked, fun h => getFrom_ok_of_getFrom_ok h []⟩

/-- A read along two chains is a read along the first, then one along the second from there. -/
theorem getFrom_append (node : α) (walked path rest : Path) :
    getFrom node walked (path ++ rest)
      = (getFrom node walked path >>= fun next => getFrom next (walked ++ path) rest) := by
  induction path generalizing node walked with
  | nil => simp [getFrom]; rfl
  | cons accessor path ih =>
    rw [List.cons_append, getFrom_cons, getFrom_cons]
    cases step node walked accessor with
    | error fault => rfl
    | ok next =>
      have h := ih next (walked ++ [accessor])
      rw [List.append_assoc] at h
      exact h

end Steps

section Lawful

variable {α : Type} [Node α] [LawfulNode α]

/-! ## One step -/

theorem step_of_kind_ne {node : α} {accessor : Accessor} (h : kind node ≠ accessor.container)
    (walked : Path) :
    step node walked accessor
      = .error (.kindMismatch accessor.container (kind node) (place walked)) := by
  cases accessor with
  | field name => exact if_neg h
  | index position => simp [step, items?_eq_none h, Accessor.container]

theorem kind_put (node : α) (accessor : Accessor) (value : α) :
    kind (put node accessor value) = accessor.container := by
  cases accessor with
  | field name => exact LawfulNode.kind_putField name value (kind_asMapping node)
  | index position => exact kind_ofItems _

theorem step_put_self (node : α) (accessor : Accessor) (value : α) (walked : Path) :
    step (put node accessor value) walked accessor = .ok value := by
  cases accessor with
  | field name =>
    refine step_field_eq_ok.2 ⟨kind_put node (.field name) value, ?_⟩
    rw [put, LawfulNode.field?_putField name name value (kind_asMapping node), if_pos rfl]
  | index position =>
    refine step_index_eq_ok.2 ⟨_, LawfulNode.items?_ofItems _, ?_⟩
    exact List.getElem?_set_self (lt_length_widened node position)

/-- A step of a write keeps what the other steps into that container lead to. -/
theorem step_put_of_apart {node found : α} {accessor other : Accessor} {walked : Path}
    (hapart : accessor.Apart other) (h : step node walked other = .ok found) (value : α) :
    step (put node accessor value) walked other = .ok found := by
  rcases hapart.cases with
    ⟨name, name', rfl, rfl, hname⟩ | ⟨position, position', rfl, rfl, hposition⟩
  · obtain ⟨hmapping, hfound⟩ := step_field_eq_ok.1 h
    refine step_field_eq_ok.2 ⟨kind_put node (.field name) value, ?_⟩
    rw [put, LawfulNode.field?_putField name name' value (kind_asMapping node), if_neg hname,
      field?_asMapping hmapping, hfound]
  · obtain ⟨items, hitems, hfound⟩ := step_index_eq_ok.1 h
    refine step_index_eq_ok.2 ⟨_, LawfulNode.items?_ofItems _, ?_⟩
    rw [List.getElem?_set_ne hposition]
    exact getElem?_widened_of_some hitems hfound position

theorem child_of_step_ok {node found : α} {accessor : Accessor} {walked : Path}
    (h : step node walked accessor = .ok found) : child node accessor = found := by
  cases accessor with
  | field name =>
    obtain ⟨hmapping, hfound⟩ := step_field_eq_ok.1 h
    rw [child, field?_asMapping hmapping, hfound, Option.getD_some]
  | index position =>
    obtain ⟨items, hitems, hfound⟩ := step_index_eq_ok.1 h
    rw [child, List.getD_eq_getElem?_getD, getElem?_widened_of_some hitems hfound position,
      Option.getD_some]

theorem child_of_step_error {node : α} {accessor : Accessor} {walked : Path} {fault : AccessError}
    (h : step node walked accessor = .error fault) : child node accessor = fresh accessor := by
  cases accessor with
  | field name =>
    rw [child]
    by_cases hmapping : kind node = .mapping
    · cases hfield : field? node name with
      | none => rw [field?_asMapping hmapping, hfield]; rfl
      | some found => exact nomatch (step_field_eq_ok.2 ⟨hmapping, hfield⟩).symm.trans h
    · rw [asMapping_of_ne hmapping, LawfulNode.field?_emptyMapping]
      rfl
  | index position =>
    rw [child]
    cases hitems : items? node with
    | none =>
      have hkind : kind node ≠ .sequence := by simp [← LawfulNode.isSome_items?, hitems]
      exact getD_widened_of_ne hkind position position
    | some items =>
      cases hitem : items[position]? with
      | none => exact getD_widened_of_none hitems hitem position
      | some found => exact nomatch (step_index_eq_ok.2 ⟨items, hitems, hitem⟩).symm.trans h

/-! ## Fresh nodes -/

theorem asMapping_of_isFresh {node : α} (h : IsFresh node) : asMapping node = emptyMapping := by
  rcases h with rfl | rfl
  · exact asMapping_null
  · exact asMapping_emptyMapping

theorem kind_ne_of_isFresh {node : α} (h : IsFresh node) : kind node ≠ .sequence := by
  rcases h with rfl | rfl <;> simp

theorem child_of_isFresh {node : α} (h : IsFresh node) (accessor : Accessor) :
    child node accessor = fresh accessor := by
  cases accessor with
  | field name => rw [child, asMapping_of_isFresh h, LawfulNode.field?_emptyMapping]; rfl
  | index position => exact getD_widened_of_ne (kind_ne_of_isFresh h) position position

theorem put_of_isFresh {node other : α} (h : IsFresh node) (h' : IsFresh other)
    (accessor : Accessor) (value : α) : put node accessor value = put other accessor value := by
  cases accessor with
  | field name => rw [put, put, asMapping_of_isFresh h, asMapping_of_isFresh h']
  | index position =>
    rw [put, put, widened_of_ne (kind_ne_of_isFresh h), widened_of_ne (kind_ne_of_isFresh h')]

theorem isFresh_reached_of_isFresh {node : α} (h : IsFresh node) (path : Path) :
    IsFresh (reached path node) := by
  induction path generalizing node with
  | nil => exact h
  | cons accessor rest ih =>
    rw [reached_cons, child_of_isFresh h]
    exact ih (isFresh_fresh accessor)

/-- A write makes the same of every fresh node. -/
theorem set_of_isFresh {node other : α} (h : IsFresh node) (h' : IsFresh other) (path : Path)
    (value : α) : set path node value = set path other value := by
  cases path with
  | nil => rfl
  | cons accessor rest =>
    rw [set_cons, set_cons, child_of_isFresh h, child_of_isFresh h', put_of_isFresh h h']

/-! ## Chains of steps -/

/-- A read along the path of a write arrives at the value, and goes on from there. -/
theorem getFrom_set_append (path rest walked : Path) (node value : α) :
    getFrom (set path node value) walked (path ++ rest)
      = getFrom value (walked ++ path) rest := by
  induction path generalizing node walked with
  | nil => rw [List.append_nil]; rfl
  | cons accessor path ih =>
    rw [List.cons_append, getFrom_cons, set_cons, step_put_self]
    have h := ih (walked ++ [accessor]) (child node accessor)
    rw [List.append_assoc] at h
    exact h

theorem reached_of_getFrom {node found : α} {walked path : Path}
    (h : getFrom node walked path = .ok found) : reached path node = found := by
  induction path generalizing node walked with
  | nil => exact Except.ok.inj h
  | cons accessor rest ih =>
    obtain ⟨next, hstep, hrest⟩ := bind_eq_ok.1 h
    rw [reached_cons, child_of_step_ok hstep]
    exact ih hrest

/-- Where a read fails, at whatever step, a write goes on from a fresh node. -/
theorem isFresh_reached {node : α} {walked path : Path} {fault : AccessError}
    (h : getFrom node walked path = .error fault) : IsFresh (reached path node) := by
  induction path generalizing node walked with
  | nil => exact nomatch h
  | cons accessor rest ih =>
    rw [getFrom_cons] at h
    rw [reached_cons]
    cases hstep : step node walked accessor with
    | error stop =>
      -- The read has failed, and from here on the write meets fresh nodes only.
      rw [child_of_step_error hstep]
      exact isFresh_reached_of_isFresh (isFresh_fresh accessor) rest
    | ok next =>
      rw [hstep] at h
      rw [child_of_step_ok hstep]
      exact ih h

end Lawful

end Path

/-! ## What writes keep -/

/-- A property that passes from a tree to its parts, and from the parts to the tree that is made of
them. Fields are written into mappings without a tag only. -/
structure Inherited {α : Type} [Node α] (P : α → Prop) : Prop where
  null : P null
  emptyMapping : P emptyMapping
  untagged {node : α} : P node → P (untagged node)
  field {node value : α} {name : String} : kind node = .mapping → Node.untagged node = node →
    P node → field? node name = some value → P value
  putField {node value : α} (name : String) : kind node = .mapping → Node.untagged node = node →
    P node → P value → P (putField node name value)
  item {node : α} {items : List α} : P node → items? node = some items → ∀ item ∈ items, P item
  ofItems {items : List α} : (∀ item ∈ items, P item) → P (ofItems items)

namespace Inherited

variable {α : Type} [Node α] {P : α → Prop} (hP : Inherited P)

include hP

theorem asMapping {node : α} (h : P node) : P (asMapping node) := by
  unfold Node.asMapping
  split
  · exact hP.untagged h
  · exact hP.emptyMapping

theorem widened {node : α} (h : P node) (position : Nat) :
    ∀ item ∈ widened node position, P item := by
  intro item hitem
  rcases List.mem_append.1 hitem with hitem | hitem
  · cases hitems : items? node with
    | none =>
      rw [hitems] at hitem
      exact absurd hitem List.not_mem_nil
    | some items =>
      rw [hitems] at hitem
      exact hP.item h hitems item hitem
  · rw [List.eq_of_mem_replicate hitem]
    exact hP.null

variable [OverwritableNode α]

theorem child {node : α} (h : P node) (accessor : Accessor) : P (Path.child node accessor) := by
  cases accessor with
  | field name =>
    rw [Path.child]
    cases hfound : field? (Node.asMapping node) name with
    | none => exact hP.emptyMapping
    | some value =>
      exact hP.field (kind_asMapping node) (untagged_asMapping node) (hP.asMapping h) hfound
  | index position =>
    rw [Path.child, List.getD_eq_getElem?_getD]
    cases hitem : (Node.widened node position)[position]? with
    | none => exact hP.null
    | some item => exact hP.widened h position item (List.mem_of_getElem? hitem)

theorem put {node value : α} (h : P node) (hvalue : P value) (accessor : Accessor) :
    P (Path.put node accessor value) := by
  cases accessor with
  | field name =>
    exact hP.putField name (kind_asMapping node) (untagged_asMapping node) (hP.asMapping h) hvalue
  | index position =>
    refine hP.ofItems fun item hitem => ?_
    rcases List.mem_or_eq_of_mem_set hitem with hitem | rfl
    · exact hP.widened h position item hitem
    · exact hvalue

theorem reached {root : α} (h : P root) (path : Path) : P (path.reached root) :=
  List.foldlRecOn path Path.child h fun _ hnode accessor _ => hP.child hnode accessor

/-- The property is kept on the way down, by the nodes that the write goes on from, and on the way
back, by the containers that it leaves behind. -/
theorem set {root value : α} (h : P root) (hvalue : P value) (path : Path) :
    P (path.set root value) := by
  induction path generalizing root with
  | nil => exact hvalue
  | cons accessor rest ih =>
    rw [Path.set_cons]
    exact hP.put h (ih (hP.child h accessor)) accessor

end Inherited

theorem getAt_eq_ok {α : Type} [Node α] {root value : α} {text : String} :
    getAt root text = .ok value
      ↔ ∃ path, Path.parse text = .ok path ∧ path.get root = .ok value := by
  rw [getAt]
  cases Path.parse text <;> simp

end Dotpath
