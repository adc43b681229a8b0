import Dotpath.Number

/-!
# YAML trees

Mappings keep the order of their entries, and any tree can be a key. A tag wraps a value. Two keys
are the same when they are equal up to the order of mapping entries and the sign of zero.
-/

namespace Dotpath

/-- A local tag, named without its exclamation mark. The mark standing alone is its own name. -/
structure Tag where
  name : String
deriving DecidableEq, Repr

namespace Tag

/-- Reads a tag as written: one leading mark goes unless nothing follows it. -/
def ofText (text : String) : Tag :=
  match text.toList with
  | '!' :: c :: rest => ⟨.ofList (c :: rest)⟩
  | _ => ⟨text⟩

/-- The tag with its mark. -/
def text (tag : Tag) : String :=
  "!" ++ tag.name

end Tag

inductive Yaml where
  | null
  | bool (value : Bool)
  | number (value : Number)
  | string (value : String)
  | sequence (items : List Yaml)
  | mapping (entries : List (Yaml × Yaml))
  | tagged (tag : Tag) (value : Yaml)

namespace Yaml

instance : Inhabited Yaml := ⟨null⟩

mutual

/-- Equality of keys. -/
def sameKey : Yaml → Yaml → Bool
  | null, null => true
  | bool a, bool b => a == b
  | number a, number b => a.sameKey b
  | string a, string b => a == b
  | sequence as, sequence bs => sameItems as bs
  | mapping as, mapping bs => as.length == bs.length && within as bs
  | tagged s a, tagged t b => s == t && sameKey a b
  | _, _ => false

def sameItems : List Yaml → List Yaml → Bool
  | [], [] => true
  | a :: as, b :: bs => sameKey a b && sameItems as bs
  | _, _ => false

/-- Every entry has its like among `others`. -/
def within : List (Yaml × Yaml) → List (Yaml × Yaml) → Bool
  | [], _ => true
  | (key, value) :: rest, others =>
    others.any (fun other => sameKey key other.1 && sameKey value other.2) && within rest others

end

/-- The value below all tags. -/
def untagged : Yaml → Yaml
  | tagged _ value => value.untagged
  | value => value

/-- Adds an entry at the end; one with the same key keeps its place and takes the new value. -/
def insertEntry (key value : Yaml) : List (Yaml × Yaml) → List (Yaml × Yaml)
  | [] => [(key, value)]
  | (k, v) :: rest =>
    if sameKey k key then (k, value) :: rest else (k, v) :: insertEntry key value rest

/-- The mapping that the entries make when inserted in order. -/
def ofEntries (entries : List (Yaml × Yaml)) : Yaml :=
  mapping (entries.foldl (fun done entry => insertEntry entry.1 entry.2 done) [])

/-- A string below any tags. -/
def isString (value : Yaml) : Bool :=
  match value.untagged with
  | string _ => true
  | _ => false

/-- Exactly this string, without a tag. -/
def isText (name : String) : Yaml → Bool
  | string s => s == name
  | _ => false

/-! ## Equality of trees -/

mutual

/-- The same tree, entries in the same order. -/
def same : Yaml → Yaml → Bool
  | null, null => true
  | bool a, bool b => a == b
  | number a, number b => a == b
  | string a, string b => a == b
  | sequence as, sequence bs => sameList as bs
  | mapping as, mapping bs => sameEntries as bs
  | tagged s a, tagged t b => s == t && same a b
  | _, _ => false

def sameList : List Yaml → List Yaml → Bool
  | [], [] => true
  | a :: as, b :: bs => same a b && sameList as bs
  | _, _ => false

def sameEntries : List (Yaml × Yaml) → List (Yaml × Yaml) → Bool
  | [], [] => true
  | (j, a) :: as, (k, b) :: bs => same j k && same a b && sameEntries as bs
  | _, _ => false

end

mutual

theorem same_iff : (a b : Yaml) → (same a b = true ↔ a = b)
  | .null, b => by cases b <;> simp [same]
  | .bool _, b => by cases b <;> simp [same]
  | .number _, b => by cases b <;> simp [same]
  | .string _, b => by cases b <;> simp [same]
  | .sequence as, b => by
    cases b with
    | sequence bs => simp [same, sameList_iff as bs]
    | _ => simp [same]
  | .mapping as, b => by
    cases b with
    | mapping bs => simp [same, sameEntries_iff as bs]
    | _ => simp [same]
  | .tagged s a, b => by
    cases b with
    | tagged t b => simp [same, same_iff a b]
    | _ => simp [same]

theorem sameList_iff : (as bs : List Yaml) → (sameList as bs = true ↔ as = bs)
  | [], [] => by simp [sameList]
  | a :: as, b :: bs => by simp [sameList, same_iff a b, sameList_iff as bs]
  | [], _ :: _ => by simp [sameList]
  | _ :: _, [] => by simp [sameList]

theorem sameEntries_iff : (as bs : List (Yaml × Yaml)) → (sameEntries as bs = true ↔ as = bs)
  | [], [] => by simp [sameEntries]
  | (j, a) :: as, (k, b) :: bs => by
    simp [sameEntries, same_iff j k, same_iff a b, sameEntries_iff as bs]
  | [], _ :: _ => by simp [sameEntries]
  | _ :: _, [] => by simp [sameEntries]

end

instance : DecidableEq Yaml :=
  fun a b => decidable_of_iff (same a b = true) (same_iff a b)

end Yaml

end Dotpath
