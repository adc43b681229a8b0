/-!
# Nodes as written

The form of a document: scalars with their texts, collections, tags in full, anchors, and aliases
that name their targets. Values come from it once aliases have been followed and tags applied.
-/

namespace Dotpath.Yaml

/-- What stands before a node. -/
structure Marks where
  anchor : Option (List Char)
  tag : Option (List UInt8)
deriving DecidableEq, Repr

/-- A node whose aliases have targets of type `α`. -/
inductive Form (α : Type) where
  | reference (target : α)
  | scalar (marks : Marks) (plain : Bool) (text : List Char)
  | sequence (marks : Marks) (items : List (Form α))
  | mapping (marks : Marks) (entries : List (Form α × Form α))

namespace Form

variable {α : Type}

/-- The node that stands where nothing is written. -/
def empty : Form α :=
  scalar ⟨none, none⟩ true []

mutual

/-- The number of parts: one for a scalar or an alias, two for the ends of a collection. -/
def size : Form α → Nat
  | reference _ => 1
  | scalar _ _ _ => 1
  | sequence _ items => 2 + itemsSize items
  | mapping _ entries => 2 + entriesSize entries

def itemsSize : List (Form α) → Nat
  | [] => 0
  | item :: rest => size item + itemsSize rest

def entriesSize : List (Form α × Form α) → Nat
  | [] => 0
  | (key, value) :: rest => size key + size value + entriesSize rest

end

end Form

end Dotpath.Yaml
