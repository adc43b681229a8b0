/-!
# Nodes

What a path needs of a tree: the kind of a node, its fields and items, and fresh containers to write
into. Tags are looked through; a type of trees without tags leaves `untagged` the identity.
-/

namespace Dotpath

/-- The shape of a node. -/
inductive Kind where
  | null
  | boolean
  | number
  | string
  | sequence
  | mapping
deriving DecidableEq, Repr

def Kind.name : Kind → String
  | null => "null"
  | boolean => "boolean"
  | number => "number"
  | string => "string"
  | sequence => "sequence"
  | mapping => "mapping"

/-- A type of trees that paths lead into. Fields exist on mappings only and items on sequences
only. -/
class Node (α : Type) where
  null : α
  emptyMapping : α
  ofItems : List α → α
  /-- The kind below any tags. -/
  kind : α → Kind
  untagged : α → α
  /-- The value of the entry that a name addresses. -/
  field? : α → String → Option α
  /-- Gives the entry that a name addresses a new value; `none` if there is no such entry. -/
  replaceField? : α → String → α → Option α
  /-- Adds an entry, or gives the one whose key is that very string a new value. -/
  insertField : α → String → α → α
  items? : α → Option (List α)

namespace Node

variable {α : Type} [Node α]

/-- Gives the entry that `name` addresses a new value, and adds an entry if there is none. -/
def putField (node : α) (name : String) (value : α) : α :=
  (replaceField? node name value).getD (insertField node name value)

/-- The node without its tags if it is a mapping, else a fresh mapping. -/
def asMapping (node : α) : α :=
  if kind node = .mapping then untagged node else emptyMapping

/-- The items of a sequence, none for any other node, widened with nulls to hold `position`. -/
def widened (node : α) (position : Nat) : List α :=
  let items := (items? node).getD []
  items ++ List.replicate (position + 1 - items.length) null

end Node

end Dotpath
