import Dotpath.Yaml.Token.Quoted

/-!
# Block scalars

A header, then lines that are indented alike. A literal scalar keeps its line breaks; a folded one
joins lines that do not start with white space. The header says what becomes of the last breaks.
-/

namespace Dotpath.Yaml.Token

/-- What becomes of the line breaks at the end. -/
inductive Chomping where
  /-- None stays. -/
  | strip
  /-- The last line keeps its break. -/
  | clip
  /-- All stay. -/
  | keep
deriving DecidableEq, Repr

/-- Reads a chomping indicator. -/
def chomping? (here : Cursor) : Option (Chomping × Cursor) :=
  match here.rest.head? with
  | some '+' => some (.keep, here.next)
  | some '-' => some (.strip, here.next)
  | _ => none

/-- Reads an indentation indicator; there is none in the result if there is none in the text, and
zero is refused. -/
def increment? (here : Cursor) : Option (Option Nat × Cursor) :=
  match here.rest.head? with
  | some c =>
    if c = '0' then none
    else if c.isDigit then some (some (c.toNat - '0'.toNat), here.next)
    else some (none, here)
  | none => some (none, here)

/-- Reads the indicators, which come in either order. -/
def indicators? (here : Cursor) : Option (Chomping × Option Nat × Cursor) :=
  match chomping? here with
  | some (chomping, here) =>
    (increment? here).map fun (increment, here) => (chomping, increment, here)
  | none => do
    match ← increment? here with
    | (none, here) => pure (.clip, none, here)
    | (some increment, here) =>
      match chomping? here with
      | some (chomping, here) => pure (chomping, some increment, here)
      | none => pure (.clip, some increment, here)

/-- Passes empty lines and the indentation of the next line. The result is their breaks, the widest
indentation met and the place; `indent` is zero as long as it is unknown. A tab cannot indent. -/
def emptyLines (indent : Nat) : Nat → Cursor → Nat → List Char → Option (List Char × Nat × Cursor)
  | 0, _, _, _ => none
  | fuel + 1, here, widest, breaks =>
    let spaces := (here.run (· = ' ')).length
    let here := here.drop (if indent = 0 then spaces else min spaces (indent - here.column))
    let widest := max widest here.column
    match here.rest with
    | c :: _ =>
      if c = '\t' && (indent = 0 || here.column < indent) then none
      else if isBreak c then emptyLines indent fuel here.next widest (c :: breaks)
      else some (breaks.reverse, widest, here)
    | [] => some (breaks.reverse, widest, here)

/-- The text of a block scalar in the making. -/
structure Block where
  text : List Char
  /-- The break of the last line, which later lines can fold. -/
  lastBreak : List Char
  /-- The breaks of the empty lines after it. -/
  emptyBreaks : List Char
  /-- The last line started with white space. -/
  spaced : Bool

namespace Block

/-- What joins the last line to the next one. -/
def joint (block : Block) (literal spaced : Bool) : List Char :=
  if !literal && block.lastBreak = ['\n'] && !block.spaced && !spaced then
    (if block.emptyBreaks.isEmpty then [' '] else []) ++ block.emptyBreaks
  else block.lastBreak ++ block.emptyBreaks

def finish (block : Block) : Chomping → List Char
  | .strip => block.text
  | .clip => block.text ++ block.lastBreak
  | .keep => block.text ++ block.lastBreak ++ block.emptyBreaks

end Block

/-- Reads the lines that are indented to `indent`. -/
def blockFrom (literal : Bool) (indent : Nat) : Nat → Cursor → Block → Option (Block × Cursor)
  | 0, _, _ => none
  | fuel + 1, here, block =>
    if here.column ≠ indent || here.rest.isEmpty then some (block, here)
    else do
      let spaced := here.rest.head?.any isGap
      let line := here.run (!isBreak ·)
      let text := block.text ++ block.joint literal spaced ++ line
      let here := here.skipLine
      let lastBreak := here.rest.take 1
      let (breaks, _, here) ← emptyLines indent (here.rest.length + 1) here.next 0 []
      blockFrom literal indent fuel here ⟨text, lastBreak, breaks, spaced⟩

/-- Reads the block scalar whose indicator comes first, inside a collection at a column, if any. -/
def block? (literal : Bool) (outer : Option Nat) (here : Cursor) : Option (List Char × Cursor) := do
  let (chomping, increment, here) ← indicators? here.next
  let here := here.skip isGap
  let here := if here.rest.head? = some '#' then here.skipLine else here
  if !here.rest.head?.all isBreak then none
  let here := here.next
  let known := (increment.map (outer.getD 0 + ·)).getD 0
  let (breaks, widest, here) ← emptyLines known (here.rest.length + 1) here 0 []
  let indent := if known = 0 then max widest (max ((outer.map (· + 1)).getD 0) 1) else known
  let (block, here) ← blockFrom literal indent (here.rest.length + 1) here ⟨[], [], breaks, false⟩
  pure (block.finish chomping, here)

end Dotpath.Yaml.Token
