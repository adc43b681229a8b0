import Dotpath.Text.Split

/-!
# File names

A name is text with slashes between its segments. Empty segments and single points lead nowhere.
Names are kept as given, since messages show them that way.
-/

namespace Dotpath.FileName

/-- A segment that leads nowhere. -/
def isIdle (segment : List Char) : Bool :=
  segment.isEmpty || segment = ['.']

/-- The segments that lead somewhere. -/
def segments (name : List Char) : List (List Char) :=
  (Text.splitOn '/' name).filter (!isIdle ·)

/-- The name can only stand for a folder. -/
def namesFolder (name : List Char) : Bool :=
  match (Text.splitOn '/' name).getLast? with
  | some last => isIdle last || last = ['.', '.']
  | none => false

/-- What comes before the segments: the slash of the root, or a point for the place itself. -/
def head (name : List Char) : List Char :=
  match name with
  | '/' :: _ => ['/']
  | ['.'] => ['.']
  | '.' :: '/' :: _ => ['.']
  | _ => []

/-- Drops idle segments from the end. -/
def dropIdle (segments : List (List Char)) : List (List Char) :=
  (segments.reverse.dropWhile isIdle).reverse

/-- The name of the folder that holds what is named, empty if the name does not show it. -/
def parent (name : List Char) : List Char :=
  let head := FileName.head name
  let body := dropIdle (Text.splitOn '/' (name.drop head.length))
  if body.isEmpty then [] else head ++ Text.joinWith '/' (dropIdle body.dropLast)

/-- What follows the last point of the last segment, unless the point starts the segment. -/
def extension? (name : List Char) : Option (List Char) :=
  match (segments name).getLast? with
  | none => none
  | some last =>
    if last = ['.', '.'] then none
    else match (Text.splitOn '.' last).reverse with
      | ext :: stem :: before => if before.isEmpty && stem.isEmpty then none else some ext
      | _ => none

/-- The extension is one of those of YAML documents, in either case. -/
def isYaml (name : List Char) : Bool :=
  match extension? name with
  | some ext =>
    let ext := ext.map Char.toLower
    ext = "yaml".toList || ext = "yml".toList
  | none => false

end Dotpath.FileName
