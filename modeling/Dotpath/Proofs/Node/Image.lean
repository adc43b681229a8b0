import Dotpath.Proofs.Node.Maps
import Dotpath.Proofs.Node.Order
import Dotpath.Proofs.Node.Ordered
import Mathlib.Data.List.Find

/-!
# JSON trees as YAML trees

Every JSON tree has an image among the YAML trees: objects become mappings with string keys, in the
same order.

Results:
1. `ofJson_inj`: different trees have different images.
2. `isNodeMap_ofJson`: a path sees no difference between a tree and its image.
3. `put_ofJson`: a step of a write does to the image what it does to the tree, but for the place of
   a new entry.
-/

namespace Dotpath.Yaml

open Dotpath.Path

/-! ## The image of a tree -/

mutual

/-- The YAML tree that holds what a JSON tree holds. -/
def ofJson : Json → Yaml
  | .null => null
  | .bool value => bool value
  | .number value => number value
  | .string value => string value
  | .array items => sequence (ofItems items)
  | .object fields => mapping (ofFields fields)

def ofItems : List Json → List Yaml
  | [] => []
  | item :: rest => ofJson item :: ofItems rest

def ofFields : List (String × Json) → List (Yaml × Yaml)
  | [] => []
  | (name, value) :: rest => (string name, ofJson value) :: ofFields rest

end

/-- The entry that a field becomes. -/
def ofField (field : String × Json) : Yaml × Yaml :=
  (string field.1, ofJson field.2)

theorem ofItems_eq_map (items : List Json) : ofItems items = items.map ofJson := by
  induction items with
  | nil => rfl
  | cons item rest ih => rw [ofItems, ih, List.map_cons]

theorem ofFields_eq_map (fields : List (String × Json)) : ofFields fields = fields.map ofField := by
  induction fields with
  | nil => rfl
  | cons field rest ih => rw [ofFields, ih, List.map_cons, ofField]

mutual

theorem ofJson_inj {a b : Json} (h : ofJson a = ofJson b) : a = b := by
  cases a <;> cases b <;> simp only [ofJson, reduceCtorEq] at h
  case null.null => rfl
  case bool.bool => rw [Yaml.bool.inj h]
  case number.number => rw [Yaml.number.inj h]
  case string.string => rw [Yaml.string.inj h]
  case array.array => rw [ofItems_inj (Yaml.sequence.inj h)]
  case object.object => rw [ofFields_inj (Yaml.mapping.inj h)]

theorem ofItems_inj {as bs : List Json} (h : ofItems as = ofItems bs) : as = bs := by
  cases as <;> cases bs <;> simp only [ofItems, reduceCtorEq, List.cons.injEq] at h
  case nil.nil => rfl
  case cons.cons => rw [ofJson_inj h.1, ofItems_inj h.2]

theorem ofFields_inj {as bs : List (String × Json)} (h : ofFields as = ofFields bs) : as = bs := by
  cases as with
  | nil =>
    cases bs with
    | nil => rfl
    | cons b bs => exact nomatch h
  | cons a as =>
    cases bs with
    | nil => exact nomatch h
    | cons b bs =>
      obtain ⟨hfield, hrest⟩ := List.cons.inj h
      obtain ⟨hname, hvalue⟩ := Prod.mk.inj hfield
      rw [Prod.ext (Yaml.string.inj hname) (ofJson_inj hvalue), ofFields_inj hrest]

end

/-! ### Fields of the image -/

/-- Where all keys are strings, a name addresses the entry of that very key. -/
theorem addresses_ofField {fields : List (String × Json)} {field : String × Json}
    (h : field ∈ fields) (name : String) :
    addresses (fields.map ofField) name (ofField field) = (field.1 == name) := by
  unfold addresses
  split
  · rfl
  · next hnone =>
    rw [Bool.not_eq_true, List.any_eq_false] at hnone
    have hnamed : isNamed name (ofField field) = false := by
      simpa using hnone _ (List.mem_map_of_mem h)
    exact hnamed.symm

theorem field?_ofJson (json : Json) (name : String) :
    (ofJson json).field? name = (json.field? name).map ofJson := by
  cases json with
  | object fields =>
    have hfind : fields.find? (addresses (fields.map ofField) name ∘ ofField)
        = fields.find? (·.1 == name) :=
      List.find?_congr fun field hfield => addresses_ofField hfield name
    rw [ofJson, field?, Json.field?, ofFields_eq_map, Entries.find?_eq, List.find?_map, hfind]
    cases List.find? (·.1 == name) fields <;> rfl
  | _ => rfl

theorem isNodeMap_ofJson : IsNodeMap ofJson where
  map_null := rfl
  map_emptyMapping := rfl
  map_ofItems items := congrArg sequence (ofItems_eq_map items)
  kind_map json := by cases json <;> rfl
  untagged_map json := by cases json <;> rfl
  field?_map := field?_ofJson
  items?_map json := by
    cases json with
    | array items => exact congrArg some (ofItems_eq_map items)
    | _ => rfl

/-! ## Steps of a write -/

/-- An entry takes its place in an object, and goes to the end of a mapping if it is new. -/
theorem putEntry_ofField {fields : List (String × Json)} (h : Entries.Sorted fields) (name : String)
    (value : Json) :
    (putEntry name (ofJson value) (fields.map ofField)).Perm
      ((Entries.insert name value fields).map ofField) := by
  rcases putEntry_cases name (fields.map ofField) with
    ⟨before, entry, after, hsplit, -, hentry, hput⟩ | ⟨hnone, hput⟩
  · -- The entry is there: it keeps its place in both.
    rw [hput]
    obtain ⟨front, rest, rfl, rfl, hrest⟩ := List.map_eq_append_iff.1 hsplit
    obtain ⟨field, back, rfl, rfl, rfl⟩ := List.map_eq_cons_iff.1 hrest
    rw [addresses_ofField (by simp)] at hentry
    obtain rfl : field.1 = name := by simpa using hentry
    rw [Entries.insert_of_split h value, List.map_append, List.map_cons]
    rfl
  · -- The entry is new: it goes to the end of the mapping, and between the fields of the object.
    rw [hput]
    have habsent : ∀ field ∈ fields, field.1 ≠ name := by
      intro field hfield
      have hskip := hnone _ (List.mem_map_of_mem hfield)
      rw [addresses_ofField hfield] at hskip
      simpa using hskip
    have hperm := (Entries.insert_perm habsent value).symm.map ofField
    rwa [List.map_append] at hperm

/-- A step of a write does to the image what it does to the tree, but for the place of a new
entry. -/
theorem put_ofJson {json : Json} (h : json.Ordered) (accessor : Accessor) (value : Json) :
    EqUpToOrder (put (ofJson json) accessor (ofJson value)) (ofJson (put json accessor value)) := by
  cases accessor with
  | index position =>
    rw [isNodeMap_ofJson.put_index_map]
    exact .refl _
  | field name =>
    obtain ⟨fields, hfields, hsorted⟩ := Json.ordered_asMapping h
    rw [put, put, isNodeMap_ofJson.asMapping_map, hfields, Json.putField_eq, ofJson,
      putField_mapping, Json.insertField, ofJson, ofFields_eq_map, ofFields_eq_map]
    exact .reorder (putEntry_ofField hsorted name value)

end Dotpath.Yaml
