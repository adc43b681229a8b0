import Dotpath.EnvFile.Line
import Dotpath.Text.Alphanumeric

/-!
# Values of an env file

A value ends at the first space outside quotes. Single quotes keep all characters, double quotes all
but escapes and substitutions; stretches of either kind can follow one another. A dollar sign starts
a substitution, with or without braces around the name.
-/

namespace Dotpath.EnvFile

/-- The name of a substitution in the making. -/
structure OpenName where
  braced : Bool
  name : List Char
deriving DecidableEq, Repr

/-- What is known in the midst of a value. -/
structure ValueState where
  output : List Char
  strong : Bool
  weak : Bool
  escaped : Bool
  /-- A space has ended the value. -/
  ended : Bool
  open? : Option OpenName

namespace ValueState

def start : ValueState := ⟨[], false, false, false, false, none⟩

def push (state : ValueState) (text : List Char) : ValueState :=
  { state with output := state.output ++ text }

/-- The character after a backslash. -/
def escape? (state : ValueState) (c : Char) : Option ValueState :=
  let state := { state with escaped := false }
  if ['\\', '\'', '"', '$', ' '].contains c then some (state.push [c])
  else if c = 'n' then some (state.push ['\n'])
  else none

/-- A character after the start of a substitution. -/
def substitute (lookup : List Char → List Char) (state : ValueState) (opened : OpenName)
    (c : Char) : ValueState :=
  if Text.isAlphanumeric c then
    { state with open? := some { opened with name := opened.name ++ [c] } }
  else if opened.braced then
    if c = '\x7d' then { state with open? := none }.push (lookup opened.name)
    else { state with open? := some { opened with name := opened.name ++ [c] } }
  else if c = '\x7b' && opened.name.isEmpty then { state with open? := some ⟨true, []⟩ }
  else
    let state := { state with open? := none }.push (lookup opened.name)
    if c = '$' then { state with open? := some ⟨false, []⟩ } else state.push [c]

/-- A character where no substitution, escape or single quote is open. -/
def plain (state : ValueState) (c : Char) : ValueState :=
  if c = '$' then { state with open? := some ⟨false, []⟩ }
  else if state.weak then
    if c = '"' then { state with weak := false }
    else if c = '\\' then { state with escaped := true }
    else state.push [c]
  else if c = '\'' then { state with strong := true }
  else if c = '"' then { state with weak := true }
  else if c = '\\' then { state with escaped := true }
  else if c = ' ' || c = '\t' then { state with ended := true }
  else state.push [c]

/-- One more character, before the value has ended; `none` if it cannot be escaped. -/
def next? (lookup : List Char → List Char) (state : ValueState) (c : Char) : Option ValueState :=
  if state.escaped then state.escape? c
  else if state.strong then
    some (if c = '\'' then { state with strong := false } else state.push [c])
  else match state.open? with
    | some opened => some (state.substitute lookup opened c)
    | none => some (state.plain c)

/-- A quote or a brace is open. -/
def isOpen (state : ValueState) : Bool :=
  state.strong || state.weak || state.open?.any (·.braced)

/-- The value, with a name at its end replaced. -/
def finish (lookup : List Char → List Char) (state : ValueState) : List Char :=
  match state.open? with
  | some opened => state.output ++ lookup opened.name
  | none => state.output

end ValueState

/-- The value of `input` if nothing is open at its end. -/
def closeValue (lookup : List Char → List Char) (input : List Char) (state : ValueState) :
    Except LineFault (List Char) :=
  if state.isOpen then .error ⟨input, Text.byteLength input - 1⟩ else .ok (state.finish lookup)

/-- Reads on in `input` from a position. After the end only a comment can come. -/
def valueFrom (lookup : List Char → List Char) (input : List Char) (index : Nat)
    (state : ValueState) : List Char → Except LineFault (List Char)
  | [] => closeValue lookup input state
  | c :: cs =>
    if state.ended then
      if c = ' ' || c = '\t' then valueFrom lookup input (index + 1) state cs
      else if c = '#' then closeValue lookup input state
      else .error ⟨input, index⟩
    else match state.next? lookup c with
      | some state => valueFrom lookup input (index + 1) state cs
      | none => .error ⟨input, index⟩

/-- Reads a value. `lookup` gives the text of a name. -/
def value (lookup : List Char → List Char) (input : List Char) : Except LineFault (List Char) :=
  valueFrom lookup input 0 .start input

end Dotpath.EnvFile
