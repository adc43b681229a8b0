import Dotpath.Proofs.FirstFault
import Dotpath.Proofs.Node.Image
import Dotpath.Proofs.Path.Render
import Dotpath.Typed

/-!
# What a typed read accepts

A type asks for a shape at every level of a value. Both kinds of trees are read by the same rules,
except that null passes for a list or a map without entries in one of them.

Results:
1. `decode_eq_ok_iff`: what a node is worth at a type.
2. `reads_false_iff`: where the strict reading and the lenient one part.
3. `reads_map_iff`: a node and its image are worth the same.
4. `typed_reads`: typed reads of a JSON tree and of its image.
5. `null_read_as_list`: a value that only the image has.
-/

namespace Dotpath

open Yaml

theorem forall₂_and_not {α β : Type} {R : α → β → Prop} {P : α → Prop} {as : List α}
    {bs : List β} :
    List.Forall₂ (fun a b => R a b ∧ ¬ P a) as bs
      ↔ List.Forall₂ R as bs ∧ ¬ ∃ a ∈ as, P a := by
  rw [and_comm, not_exists]
  simp only [not_and]
  rw [← List.forall₂_and_left]
  simp only [and_comm]

namespace ReadType

/-! ## What a node is worth -/

section Reads

variable {α : Type} [Readable α]

/-- The node has the shape of the type and is worth the datum. `nullIsEmpty` says whether null
passes for a list or a map without entries. -/
def Reads (nullIsEmpty : Bool) : ReadType → α → Datum → Prop
  | .string, node, datum => ∃ value, Readable.layer node = .string value ∧ datum = .string value
  | .bool, node, datum => ∃ value, Readable.layer node = .bool value ∧ datum = .bool value
  | .char, node, datum => ∃ c, Readable.layer node = .string (.ofList [c]) ∧ datum = .char c
  | .int signed bits, node, datum => ∃ value, Readable.layer node = .number (.int value) ∧
    Word.holds signed bits value ∧ datum = .int value
  | .float, node, datum =>
    (∃ value, Readable.layer node = .number (.int value) ∧ datum = .float (.ofInt value)) ∨
    ∃ value, Readable.layer node = .number (.float value) ∧ datum = .float value
  | .unit, node, datum => Readable.isNull node ∧ datum = .unit
  | .optional type, node, datum =>
    Readable.isNull node ∧ datum = .absent ∨
    ¬ Readable.isNull node ∧
      ∃ value, type.Reads nullIsEmpty node value ∧ datum = .present value
  | .list type, node, datum =>
    nullIsEmpty ∧ Readable.layer node = .null ∧ datum = .list [] ∨
    ∃ items values, Readable.layer node = .items items ∧
      List.Forall₂ (fun item value => type.Reads nullIsEmpty item value) items values ∧
      datum = .list values
  | .map type, node, datum =>
    nullIsEmpty ∧ Readable.layer node = .null ∧ datum = .map [] ∨
    ∃ entries fields, Readable.layer node = .entries entries ∧
      List.Forall₂ (fun entry field => Readable.layer entry.1 = .string field.1 ∧
        type.Reads nullIsEmpty entry.2 field.2) entries fields ∧
      datum = .map (Dict.ofList fields).entries

/-- Reads an entry of a mapping with values of the type. -/
def decodeEntry (type : ReadType) (entry : α × α) : Except String (String × Datum) := do
  let key ← decodeKey entry.1
  let value ← type.decode entry.2
  pure (key, value)

theorem decodeEntry_eq_ok {type : ReadType} {entry : α × α} {field : String × Datum} :
    type.decodeEntry entry = .ok field
      ↔ Readable.layer entry.1 = .string field.1 ∧ type.decode entry.2 = .ok field.2 := by
  obtain ⟨name, value⟩ := field
  unfold decodeEntry decodeKey
  cases Readable.layer entry.1 with
  | string key => cases type.decode entry.2 <;> simp [bind, Except.bind, pure, Except.pure]
  | _ => simp [bind, Except.bind]

theorem decode_list_of_items {type : ReadType} {node : α} {items : List α}
    (h : Readable.layer node = .items items) :
    (list type).decode node = (items.mapM type.decode).map .list := by
  simp only [decode, h]

theorem decode_map_of_entries {type : ReadType} {node : α} {entries : List (α × α)}
    (h : Readable.layer node = .entries entries) :
    (map type).decode node
      = (entries.mapM type.decodeEntry).map fun read => .map (Dict.ofList read).entries := by
  simp only [decode, h]
  change (entries.mapM type.decodeEntry >>= _) = _
  cases entries.mapM type.decodeEntry <;> rfl

/-- A node is read as a datum exactly if it has the shape of the type and is worth that datum. -/
theorem decode_eq_ok_iff (type : ReadType) (node : α) (datum : Datum) :
    type.decode node = .ok datum ↔ type.Reads (Readable.nullIsEmpty α) node datum := by
  induction type generalizing node datum with
  | string => cases h : Readable.layer node <;> simp [decode, Reads, h, eq_comm]
  | bool => cases h : Readable.layer node <;> simp [decode, Reads, h, eq_comm]
  | char =>
    cases h : Readable.layer node with
    | string value =>
      simp only [decode, Reads, h, Layer.string.injEq, ← String.toList_inj, String.toList_ofList]
      split
      · next c hvalue => simp [hvalue, eq_comm]
      · next hvalue => simpa using fun c hc => absurd hc (hvalue c)
    | _ => simp [decode, Reads, h]
  | int signed bits =>
    cases h : Readable.layer node with
    | number value =>
      cases value with
      | int value =>
        cases hholds : Word.holds signed bits value with
        | false => simp [decode, Reads, h, hholds]
        | true => simpa [decode, Reads, h, hholds] using eq_comm
      | float value => simp [decode, Reads, h]
    | _ => simp [decode, Reads, h]
  | float =>
    cases h : Readable.layer node with
    | number value => cases value <;> simp [decode, Reads, h, eq_comm]
    | _ => simp [decode, Reads, h]
  | unit =>
    cases h : Readable.isNull node with
    | true => simp [decode, Reads, h, eq_comm]
    | false => cases htagged : Readable.isTagged node <;> simp [decode, Reads, h, htagged]
  | optional type ih =>
    cases h : Readable.isNull node with
    | true => simp [decode, Reads, h, eq_comm]
    | false => simp [decode, Reads, h, map_eq_ok, ih]
  | list type ih =>
    cases h : Readable.layer node with
    | items items =>
      rw [decode_list_of_items h, map_mapM_eq_ok]
      simp [Reads, h, ih]
    | null => cases hnull : Readable.nullIsEmpty α <;> simp [decode, Reads, h, hnull, eq_comm]
    | _ => simp [decode, Reads, h]
  | map type ih =>
    cases h : Readable.layer node with
    | entries entries =>
      rw [decode_map_of_entries h, map_mapM_eq_ok]
      simp [Reads, h, decodeEntry_eq_ok, ih]
    | null => cases hnull : Readable.nullIsEmpty α <;> simp [decode, Reads, h, hnull, eq_comm]
    | _ => simp [decode, Reads, h]

/-! ## Null in the place of a list or a map -/

/-- A null stands where the type asks for a list or a map. -/
def MeetsNull : ReadType → α → Prop
  | .optional type, node => ¬ Readable.isNull node ∧ type.MeetsNull node
  | .list type, node =>
    match Readable.layer node with
    | .null => True
    | .items items => ∃ item ∈ items, type.MeetsNull item
    | _ => False
  | .map type, node =>
    match Readable.layer node with
    | .null => True
    | .entries entries => ∃ entry ∈ entries, type.MeetsNull entry.2
    | _ => False
  | _, _ => False

/-- The strict reading is the lenient one where no null passes for a list or a map. -/
theorem reads_false_iff (type : ReadType) (node : α) (datum : Datum) :
    type.Reads false node datum ↔ type.Reads true node datum ∧ ¬ type.MeetsNull node := by
  induction type generalizing node datum with
  | optional type ih =>
    cases h : Readable.isNull node with
    | true => simp [Reads, MeetsNull, h]
    | false => simp [Reads, MeetsNull, h, ih, and_right_comm]
  | list type ih =>
    cases h : Readable.layer node with
    | items items =>
      simp [Reads, MeetsNull, h, ih, forall₂_and_not, and_right_comm]
    | _ => simp [Reads, MeetsNull, h]
  | map type ih =>
    cases h : Readable.layer node with
    | entries entries =>
      simp only [Reads, MeetsNull, h, ih, ← and_assoc, forall₂_and_not]
      simp [and_right_comm]
    | _ => simp [Reads, MeetsNull, h]
  | _ => simp [Reads, MeetsNull]

end Reads

end ReadType

/-! ## Maps of trees -/

section Map

variable {α β : Type}

/-- The level with its nodes mapped. -/
def Layer.map (f : α → β) : Layer α → Layer β
  | .null => .null
  | .bool value => .bool value
  | .number value => .number value
  | .string value => .string value
  | .items nodes => .items (nodes.map f)
  | .entries fields => .entries (fields.map (Prod.map f f))

theorem layer_ofJson (json : Json) :
    Readable.layer (ofJson json) = (Readable.layer json).map ofJson := by
  cases json with
  | array items => exact congrArg Layer.items (ofItems_eq_map items)
  | object fields =>
    simp only [ofJson, Readable.layer, Yaml.layer, Layer.map, ofFields_eq_map, List.map_map]
    rfl
  | _ => rfl

theorem isTagged_ofJson (json : Json) :
    Readable.isTagged (ofJson json) = Readable.isTagged json := by
  cases json <;> rfl

variable [Readable α] [Readable β] {f : α → β}

theorem Readable.isNull_map {node : α}
    (hf : Readable.layer (f node) = (Readable.layer node).map f)
    (htag : Readable.isTagged (f node) = Readable.isTagged node) :
    Readable.isNull (f node) = Readable.isNull node := by
  rw [isNull, isNull, hf, htag]
  cases Readable.layer node <;> rfl

/-- A map that keeps what a level holds, and its tags, keeps what the node is worth. -/
theorem ReadType.reads_map_iff
    (hf : ∀ node, Readable.layer (f node) = (Readable.layer node).map f)
    (htag : ∀ node, Readable.isTagged (f node) = Readable.isTagged node) (nullIsEmpty : Bool)
    (type : ReadType) (node : α) (datum : Datum) :
    type.Reads nullIsEmpty (f node) datum ↔ type.Reads nullIsEmpty node datum := by
  induction type generalizing node datum with
  | map type ih =>
    cases h : Readable.layer node with
    | entries entries =>
      -- A key is read at its own level, so the induction says nothing about it.
      have hkey : ∀ (key : α) (name : String), Readable.layer (f key) = .string name
          ↔ Readable.layer key = .string name := by
        intro key name
        rw [hf]
        cases Readable.layer key <;> simp [Layer.map]
      have hentries : Readable.layer (f node) = .entries (entries.map (Prod.map f f)) := by
        rw [hf, h, Layer.map]
      simp [Reads, hentries, h, hkey, ih]
    | _ => simp [Reads, hf, h, Layer.map]
  | list type ih => cases h : Readable.layer node <;> simp [Reads, hf, h, Layer.map, ih]
  | unit => simp [Reads, Readable.isNull_map (hf node) (htag node)]
  | optional type ih => simp [Reads, Readable.isNull_map (hf node) (htag node), ih]
  | _ => cases h : Readable.layer node <;> simp [Reads, hf, h, Layer.map]

end Map

/-! ## Typed reads -/

namespace Path

/-- The value is there without being of the type, and the error has a text of the path. -/
def Mismatch (path : Path) (type : ReadType) (outcome : Except AccessError Datum) : Prop :=
  ∃ text reason, outcome = .error (.typeMismatch text type.name reason) ∧ parse text = .ok path

section GetAs

variable {α : Type} [Node α] [Readable α] {path : Path} {type : ReadType} {root node : α}

theorem getAs_of_error {fault : AccessError} (h : path.get root = .error fault) :
    path.getAs type root = .error fault := by
  rw [getAs, h]
  rfl

/-- A value that is there is decoded, and the reason why it cannot be goes into the error. -/
theorem getAs_of_ok (h : path.get root = .ok node) :
    path.getAs type root
      = (type.decode (Node.untagged node)).mapError (.typeMismatch path.render type.name) := by
  simp only [getAs, h, bind, Except.bind]
  cases type.decode (Node.untagged node) <;> rfl

theorem getAs_eq_ok_iff (h : path.get root = .ok node) (datum : Datum) :
    path.getAs type root = .ok datum
      ↔ type.Reads (Readable.nullIsEmpty α) (Node.untagged node) datum := by
  rw [← ReadType.decode_eq_ok_iff, getAs_of_ok h]
  cases type.decode (Node.untagged node) <;> simp [Except.mapError]

theorem mismatch_getAs {text : String} (hparse : parse text = .ok path)
    (h : path.get root = .ok node)
    (hnone : ¬ ∃ datum, type.Reads (Readable.nullIsEmpty α) (Node.untagged node) datum) :
    path.Mismatch type (path.getAs type root) := by
  have hrender := parse_render_iff.2 (spellable_of_parse hparse)
  rw [getAs_of_ok h]
  cases hread : type.decode (Node.untagged node) with
  | ok datum => exact absurd ⟨datum, (ReadType.decode_eq_ok_iff type _ datum).1 hread⟩ hnone
  | error reason => exact ⟨path.render, reason, rfl, hrender⟩

end GetAs

end Path

/-- Typed reads of a JSON tree and of its image. A lookup that fails is reported as it is. A value
that is there is read from the tree exactly if it has the shape of the type, and from the image also
where null stands for a list or a map, as one without entries: there, and only there, the image has
a value where the tree has none. What has no value at the type is a mismatch, reported with a text
of the path. -/
theorem typed_reads {text : String} {path : Path} (h : Path.parse text = .ok path)
    (type : ReadType) (json : Json) :
    (∀ fault, path.get json = .error fault →
      path.getAs type json = .error fault ∧ path.getAs type (ofJson json) = .error fault) ∧
    ∀ node, path.get json = .ok node →
      (∀ datum, path.getAs type json = .ok datum ↔ type.Reads false node datum) ∧
      (∀ datum, path.getAs type (ofJson json) = .ok datum ↔ type.Reads true node datum) ∧
      (∀ datum, type.Reads false node datum
        ↔ type.Reads true node datum ∧ ¬ type.MeetsNull node) ∧
      ((¬ ∃ datum, type.Reads false node datum) → path.Mismatch type (path.getAs type json)) ∧
      ((¬ ∃ datum, type.Reads true node datum) →
        path.Mismatch type (path.getAs type (ofJson json))) := by
  refine ⟨fun fault hfault => ⟨Path.getAs_of_error hfault,
    Path.getAs_of_error (isNodeMap_ofJson.get_map_eq_error.2 hfault)⟩, fun node hnode => ?_⟩
  have himage : path.get (ofJson json) = .ok (ofJson node) :=
    isNodeMap_ofJson.get_map_eq_ok.2 ⟨node, hnode, rfl⟩
  -- An image has no tags to be taken off.
  have huntagged : Node.untagged (ofJson node) = ofJson node := isNodeMap_ofJson.untagged_map node
  have hworth (datum : Datum) :
      type.Reads true (Node.untagged (ofJson node)) datum ↔ type.Reads true node datum := by
    rw [huntagged]
    exact ReadType.reads_map_iff layer_ofJson isTagged_ofJson true type node datum
  refine ⟨Path.getAs_eq_ok_iff hnode, ?_, type.reads_false_iff node, ?_, ?_⟩
  · exact fun datum => (Path.getAs_eq_ok_iff himage datum).trans (hworth datum)
  · exact Path.mismatch_getAs h hnode
  · exact fun hnone => Path.mismatch_getAs h himage fun ⟨datum, hdatum⟩ =>
      hnone ⟨datum, (hworth datum).1 hdatum⟩

/-- Rows of a table, the second of which is missing. -/
def tableRows : Json :=
  .array [.array [.number (.int 1)], .null]

def tableTree : Json :=
  .object [("rows", tableRows)]

/-- Rows of bytes. -/
def rowsType : ReadType :=
  .list (.list (.int false 8))

theorem typed_reads_table :
    Path.parse "rows" = .ok [.field "rows"] ∧
    rowsType.Reads true tableRows (.list [.list [.int 1], .list []]) ∧
    Path.Mismatch [.field "rows"] rowsType (Path.getAs [.field "rows"] rowsType tableTree) := by
  obtain ⟨-, hread⟩ := @typed_reads "rows" [.field "rows"] rfl rowsType tableTree
  obtain ⟨-, himage, hstrict, hmismatch, -⟩ := hread tableRows rfl
  have hmeets : rowsType.MeetsNull tableRows := ⟨.null, by simp, trivial⟩
  exact ⟨rfl, (himage _).1 rfl, hmismatch fun ⟨datum, hdatum⟩ =>
    ((hstrict datum).1 hdatum).2 hmeets⟩

/-- Null as a list: the tree has no such value, and its image has one without entries. -/
theorem null_read_as_list :
    Path.parse "x" = .ok [.field "x"] ∧
    Path.getAs [.field "x"] (.list (.int true 64)) (Json.object [("x", .null)])
      = .error (.typeMismatch "x" "alloc::vec::Vec<i64>"
          "invalid type: null, expected a sequence") ∧
    Path.getAs [.field "x"] (.list (.int true 64)) (ofJson (.object [("x", .null)]))
      = .ok (.list []) :=
  ⟨rfl, rfl, rfl⟩

end Dotpath
