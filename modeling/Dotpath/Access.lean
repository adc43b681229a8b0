import Dotpath.Node
import Dotpath.Path.Grammar

/-!
# Reading and writing by path

Reads are strict: each step must find the container it asks for. Writes are total: a step that finds
another kind of node replaces it by a fresh container, a missing field starts from an empty mapping,
and a sequence is widened with nulls to the position asked for.
-/

namespace Dotpath

/-- Why a value could not be read. -/
inductive AccessError where
  | grammar (fault : GrammarError)
  | propertyNotFound (name : String)
  | indexOutOfRange (index length : Nat)
  /-- `place` names the node that had another kind. -/
  | kindMismatch (expected found : Kind) (place : String)
  /-- The value is there but does not have the type asked for. -/
  | typeMismatch (path type reason : String)
deriving DecidableEq, Repr

namespace AccessError

def message : AccessError → String
  | grammar fault => fault.message
  | propertyNotFound name => "key not found: " ++ name
  | indexOutOfRange index length =>
    "index " ++ toString index ++ " out of range (length " ++ toString length ++ ")"
  | kindMismatch expected found place =>
    "expected " ++ expected.name ++ " at '" ++ place ++ "', found " ++ found.name
  | typeMismatch path type reason =>
    "cannot convert value at '" ++ path ++ "' to " ++ type ++ ": " ++ reason

/-- A mapping on the way had no such field. -/
def isNotFound : AccessError → Bool
  | propertyNotFound _ => true
  | _ => false

end AccessError

namespace Path

variable {α : Type} [Node α]

/-- Takes one step from `node`, which stands at the end of `walked`. -/
def step (node : α) (walked : Path) : Accessor → Except AccessError α
  | .field name =>
    if Node.kind node = .mapping then
      match Node.field? node name with
      | some child => .ok child
      | none => .error (.propertyNotFound name)
    else .error (.kindMismatch .mapping (Node.kind node) (place walked))
  | .index position =>
    match Node.items? node with
    | some items =>
      match items[position]? with
      | some child => .ok child
      | none => .error (.indexOutOfRange position items.length)
    | none => .error (.kindMismatch .sequence (Node.kind node) (place walked))

/-- Takes the steps of `path` from `node`, which stands at the end of `walked`. -/
def getFrom (node : α) (walked : Path) : Path → Except AccessError α
  | [] => .ok node
  | accessor :: rest => do
    let child ← step node walked accessor
    getFrom child (walked ++ [accessor]) rest

/-- The node that `path` leads to, its own tag included. -/
def get (path : Path) (root : α) : Except AccessError α :=
  getFrom root [] path

/-- `current` with `value` at the end of `path`. -/
def set : Path → α → α → α
  | [], _, value => value
  | .field name :: rest, current, value =>
    let mapping := Node.asMapping current
    let child := (Node.field? mapping name).getD Node.emptyMapping
    Node.putField mapping name (set rest child value)
  | .index position :: rest, current, value =>
    let items := Node.widened current position
    Node.ofItems (items.set position (set rest (items.getD position Node.null) value))

end Path

/-- Reads the value at a path text. -/
def getAt {α : Type} [Node α] (root : α) (text : String) : Except AccessError α :=
  match Path.parse text with
  | .ok path => path.get root
  | .error fault => .error (.grammar fault)

/-- Writes `value` at a path text; nothing is written if the text is not a path. -/
def setAt {α : Type} [Node α] (root : α) (text : String) (value : α) : Except GrammarError α :=
  match Path.parse text with
  | .ok path => .ok (path.set root value)
  | .error fault => .error fault

end Dotpath
