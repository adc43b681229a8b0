import Dotpath.Env
import Dotpath.Text.Split

/-!
# Layers of environments

One environment laid over another. Its values win, except that search lists are joined: each
directory is kept once, as it is first spelled.
-/

namespace Dotpath

namespace SearchList

/-- A part of a directory's name that matters for which directory it is. -/
inductive Part where
  | root
  /-- A point at the very start. -/
  | here
  | name (text : List Char)
deriving DecidableEq, Repr

/-- The parts of a directory's name. Repeated and closing slashes and inner points do not matter. -/
def parts (directory : List Char) : List Part :=
  let pieces := Text.splitOn '/' directory
  let names := (pieces.filter fun piece => !piece.isEmpty && piece ≠ ['.']).map .name
  match pieces with
  | [] :: _ :: _ => .root :: names
  | ['.'] :: _ => .here :: names
  | _ => names

/-- The two names stand for the same directory. -/
def sameDirectory (a b : List Char) : Bool :=
  parts a = parts b

/-- The directories of a list that have names. -/
def directories (list : List Char) : List (List Char) :=
  (Text.splitOn ':' list).filter (!·.isEmpty)

/-- Keeps the first spelling of every directory. -/
def distinct (seen : List (List Char)) : List (List Char) → List (List Char)
  | [] => []
  | directory :: rest =>
    if seen.any (sameDirectory · directory) then distinct seen rest
    else directory :: distinct (directory :: seen) rest

/-- The directories of both lists in order, each once. -/
def join (high low : String) : String :=
  .ofList (Text.joinWith ':' (distinct [] (directories high.toList ++ directories low.toList)))

end SearchList

namespace Env

/-- The value that a variable has with `overlay` laid over `base`. -/
def mergeValue (base : Env) (key value : String) : String :=
  match base.find? key with
  | some existing =>
    if key = "PATH" ∧ existing ≠ "" then SearchList.join value existing else value
  | none => value

/-- Lays one environment over another. -/
def merge (overlay base : Env) : Env :=
  overlay.entries.foldl (fun env entry => env.insert entry.1 (mergeValue base entry.1 entry.2)) base

end Env

end Dotpath
