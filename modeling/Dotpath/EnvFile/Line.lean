import Dotpath.Text.Blank
import Dotpath.Text.Utf8

/-!
# Lines of an env file

A line goes on over line ends as long as a quote is open. A number sign after a blank starts a
comment, and lines that start with one are passed over. What is still open at the end of the text is
a fault.
-/

namespace Dotpath.EnvFile

/-- A line that cannot be read, and how far into it the fault is. -/
structure LineFault where
  line : List Char
  index : Nat
deriving DecidableEq, Repr

/-- What the text so far leaves open. -/
inductive LineState where
  | complete
  | escape
  | blank
  | strong
  | strongEscape
  | weak
  | weakEscape
deriving DecidableEq, Repr

namespace LineState

/-- The state that a character opens where nothing else is open. -/
def opened (c : Char) : LineState :=
  if c = '\\' then escape else if c = '"' then weak else if c = '\'' then strong else complete

/-- The state after one more character, unless that starts a comment. -/
def next? (state : LineState) (c : Char) : Option LineState :=
  match state with
  | blank => if c = '#' then none else some (opened c)
  | escape => some complete
  | complete =>
    some (if Text.isBlank c && c ≠ '\n' && c ≠ '\r' then blank else opened c)
  | weak => some (if c = '\\' then weakEscape else if c = '"' then complete else weak)
  | weakEscape => some weak
  | strong => some (if c = '\\' then strongEscape else if c = '\'' then complete else strong)
  | strongEscape => some strong

/-- The state after more text, or else the text up to a comment. -/
def scan (state : LineState) : List Char → LineState ⊕ List Char
  | [] => .inl state
  | c :: cs =>
    match state.next? c with
    | none => .inr []
    | some state =>
      match scan state cs with
      | .inl state => .inl state
      | .inr before => .inr (c :: before)

end LineState

/-- The lines of a text, with their line ends. -/
def physicalLines : List Char → List (List Char)
  | [] => []
  | c :: cs =>
    if c = '\n' then [c] :: physicalLines cs
    else match physicalLines cs with
      | [] => [[c]]
      | line :: lines => (c :: line) :: lines

/-- Takes the line end off. -/
def stripEnd (line : List Char) : List Char :=
  match line.reverse with
  | '\n' :: '\r' :: before => before.reverse
  | '\n' :: before => before.reverse
  | _ => line

/-- The first character that is not blank is a number sign. -/
def isComment (line : List Char) : Bool :=
  (line.dropWhile Text.isBlank).head? = some '#'

/-- Joins physical lines to whole ones, after `pending`, which has led to a state. A comment leaves
an empty line. -/
def joinLines (pending : List Char) (state : LineState) :
    List (List Char) → List (Except LineFault (List Char))
  | [] => if state = .complete then [] else [.error ⟨pending, Text.byteLength pending⟩]
  | line :: rest =>
    if isComment (pending ++ line) then .ok [] :: joinLines [] .complete rest
    else match state.scan line with
      | .inr before => .ok (pending ++ before) :: joinLines [] .complete rest
      | .inl .complete => .ok (stripEnd (pending ++ line)) :: joinLines [] .complete rest
      | .inl state => joinLines (pending ++ line) state rest

/-- The lines of an env file. -/
def lines (text : List Char) : List (Except LineFault (List Char)) :=
  joinLines [] .complete (physicalLines text)

end Dotpath.EnvFile
