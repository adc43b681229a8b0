/-!
# Paths

A path is a chain of steps into a tree: into a field of a mapping, or to a place in a sequence. Its
text is the dotted form that people write, such as `nodes[0].id`.
-/

namespace Dotpath

/-- One step into a tree. -/
inductive Accessor where
  | field (name : String)
  | index (position : Nat)
deriving DecidableEq, Repr

/-- Steps from the root, in order. -/
abbrev Path := List Accessor

namespace Accessor

/-- The step's own text: a bare name, or a position in brackets. -/
def text : Accessor → String
  | field name => name
  | index position => "[" ++ toString position ++ "]"

/-- The step's text after `shown`: a dot stands before a name unless nothing has been written. -/
def appendTo (shown : String) : Accessor → String
  | field name => if shown.isEmpty then name else shown ++ "." ++ name
  | index position => shown ++ "[" ++ toString position ++ "]"

end Accessor

namespace Path

/-- The dotted text of a path. -/
def render (path : Path) : String :=
  path.foldl Accessor.appendTo ""

/-- How messages name the place a path leads to. -/
def place (path : Path) : String :=
  if path.isEmpty then "<root>" else path.render

/-- Sequences are widened on demand up to this position. -/
def maxIndex : Nat := 1048576

end Path

end Dotpath
