import Dotpath.Env
import Dotpath.EnvFile.Value

/-!
# Entries of an env file

An entry is a key, an equals sign and a value, with blanks between them and perhaps `export` in
front. Reading stops at the first fault.
-/

namespace Dotpath.EnvFile

/-- What reading comes to: the entries before the first fault, and the fault. -/
structure Reading where
  entries : List (String × List Char)
  fault : Option LineFault
deriving DecidableEq, Repr

/-- The characters of a key after the first one. -/
def isKeyChar (c : Char) : Bool :=
  c.isAlphanum || c = '_' || c = '.'

/-- Takes a key off the front: it starts with a letter or an underscore. -/
def key? (cs : List Char) : Option (List Char × List Char) :=
  if cs.head?.any (fun c => c.isAlpha || c = '_') then
    some (cs.takeWhile isKeyChar, cs.dropWhile isKeyChar)
  else none

def skipBlanks (cs : List Char) : List Char :=
  cs.dropWhile Text.isBlank

/-- Takes an equals sign off the front. -/
def equals? : List Char → Option (List Char)
  | '=' :: cs => some cs
  | _ => none

/-- Splits a line without blanks at either end into the key and what comes after the equals sign. A
fault is told by the text that is left where it is found. -/
def split (line : List Char) : Except (List Char) (List Char × List Char) := do
  let (key, rest) ← orRest line (key? line)
  let rest := skipBlanks rest
  if key = "export".toList then
    match equals? rest with
    | some rest => pure (key, rest)
    | none =>
      let (key, rest) ← orRest rest (key? rest)
      let rest := skipBlanks rest
      pure (key, ← orRest rest (equals? rest))
  else pure (key, ← orRest rest (equals? rest))
where
  orRest {α : Type} (rest : List Char) : Option α → Except (List Char) α
    | some value => .ok value
    | none => .error rest

/-- Reads the entry of a line; empty lines and comments have none. -/
def entry (lookup : List Char → List Char) (line : List Char) :
    Except LineFault (Option (String × List Char)) :=
  let whole := Text.trimEnd line
  let text := skipBlanks whole
  if text.isEmpty || text.head? = some '#' then .ok none
  else match split text with
    | .error rest => .error ⟨line, Text.byteLength whole - Text.byteLength rest⟩
    | .ok (key, rest) =>
      let input := skipBlanks rest
      if input.isEmpty || input.head? = some '#' then .ok (some (.ofList key, []))
      else (value lookup input).map fun value => some (.ofList key, value)

/-- What a name stands for in a value: a variable of the process, else an earlier entry. -/
def lookup (process : Env) (earlier : List (String × List Char)) (name : List Char) : List Char :=
  match process.find? (.ofList name) with
  | some value => value.toList
  | none => (earlier.lookup (.ofList name)).getD []

/-- Reads entries after `earlier` ones, last one first. -/
def entriesFrom (process : Env) (earlier : List (String × List Char)) :
    List (Except LineFault (List Char)) → Reading
  | [] => ⟨earlier.reverse, none⟩
  | .error fault :: _ => ⟨earlier.reverse, some fault⟩
  | .ok line :: rest =>
    match entry (lookup process earlier) line with
    | .error fault => ⟨earlier.reverse, some fault⟩
    | .ok none => entriesFrom process earlier rest
    | .ok (some entry) => entriesFrom process (entry :: earlier) rest

/-- Reads the entries of an env file. -/
def read (process : Env) (text : List Char) : Reading :=
  entriesFrom process [] (lines text)

end Dotpath.EnvFile
