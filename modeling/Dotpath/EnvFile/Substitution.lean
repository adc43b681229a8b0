import Dotpath.EnvFile.Line
import Dotpath.Text.Alphanumeric

/-!
# Substitutions

The dollar signs that start substitutions are marked before an env file is read, so that reading
leaves them alone, and afterwards every marked name is replaced in one pass. Dollar signs in single
quotes, in comments and after a backslash are not marked.
-/

namespace Dotpath.EnvFile

/-- Stands for a dollar sign that starts a substitution. -/
def mark : Char := '\ue000'

/-- What the text so far means for the next character. -/
structure MarkState where
  strong : Bool
  weak : Bool
  escaped : Bool
  comment : Bool
  afterBlank : Bool
deriving DecidableEq, Repr

namespace MarkState

def start : MarkState := ⟨false, false, false, false, true⟩

/-- A substitution can start here. -/
def isOpen (state : MarkState) : Bool :=
  !state.comment && !state.escaped && !state.strong

/-- The state after one more character that is kept. -/
def next (state : MarkState) (c : Char) : MarkState :=
  let state :=
    if state.comment then { state with comment := c ≠ '\n' }
    else if state.escaped then { state with escaped := false }
    else if state.strong then { state with strong := c ≠ '\'' }
    else if c = '\\' then { state with escaped := true }
    else if c = '\'' && !state.weak then { state with strong := true }
    else if c = '"' then { state with weak := !state.weak }
    else if c = '#' && !state.weak && state.afterBlank then { state with comment := true }
    else state
  { state with afterBlank := Text.isBlank c }

end MarkState

def markFrom (state : MarkState) : List Char → List Char
  | [] => []
  | c :: cs =>
    if c = '$' && state.isOpen then mark :: markFrom { state with afterBlank := false } cs
    else c :: markFrom (state.next c) cs

/-- Marks the dollar signs that start substitutions. -/
def markAll (text : List Char) : List Char :=
  markFrom .start text

/-- The characters of a name without braces. -/
def isNameChar (c : Char) : Bool :=
  Text.isAlphanumeric c || c = '_'

/-- What has been read since the last mark. -/
inductive Expecting where
  | text
  /-- Right behind a mark. -/
  | name
  /-- In a name without braces. -/
  | bare (name : List Char)
  /-- In a name in braces. -/
  | braced (name : List Char)

/-- Replaces the marked names in a text. A mark without a name is a dollar sign. There is no result
if a brace stays open. -/
def expandFrom (lookup : List Char → List Char) : Expecting → List Char → Option (List Char)
  | .text, [] => some []
  | .name, [] => some ['$']
  | .bare name, [] => some (lookup name)
  | .braced _, [] => none
  | .text, c :: cs =>
    if c = mark then expandFrom lookup .name cs else (expandFrom lookup .text cs).map (c :: ·)
  | .name, c :: cs =>
    if c = '\x7b' then expandFrom lookup (.braced []) cs
    else if isNameChar c then expandFrom lookup (.bare [c]) cs
    else if c = mark then (expandFrom lookup .name cs).map ('$' :: ·)
    else (expandFrom lookup .text cs).map (['$', c] ++ ·)
  | .bare name, c :: cs =>
    if isNameChar c then expandFrom lookup (.bare (name ++ [c])) cs
    else if c = mark then (expandFrom lookup .name cs).map (lookup name ++ ·)
    else (expandFrom lookup .text cs).map (lookup name ++ c :: ·)
  | .braced name, c :: cs =>
    if c = '\x7d' then (expandFrom lookup .text cs).map (lookup name ++ ·)
    else expandFrom lookup (.braced (name ++ [c])) cs

/-- Puts dollar signs back for marks. -/
def unmark (text : List Char) : List Char :=
  text.map fun c => if c = mark then '$' else c

/-- Replaces the marked names in a value. -/
def expand (lookup : List Char → List Char) (value : List Char) : Except LineFault (List Char) :=
  match expandFrom lookup .text value with
  | some text => .ok text
  | none => .error ⟨unmark value, Text.byteLength (unmark value) - 1⟩

end Dotpath.EnvFile
