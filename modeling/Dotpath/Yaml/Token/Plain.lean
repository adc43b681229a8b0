import Dotpath.Yaml.Token.Quoted

/-!
# Plain scalars

A plain scalar is words with folded white space between them. It ends before a comment, a colon that
ends a word, a document marker, a line that is not indented enough and, in a flow collection, an
indicator of the collection.
-/

namespace Dotpath.Yaml.Token

/-- The characters that end a word inside a flow collection. -/
def isFlowMark (c : Char) : Bool :=
  c = ',' || c = '[' || c = ']' || c = '\x7b' || c = '\x7d'

/-- The word that comes first; `none` if a colon in a flow collection sticks to an indicator. -/
def word? (flow : Bool) : List Char → Option (List Char)
  | [] => some []
  | c :: cs =>
    if isSpace c then some []
    else if flow && c = ':' && cs.head?.any (fun d => isFlowMark d || d = '?') then none
    else if c = ':' && endsWord cs then some []
    else if flow && isFlowMark c then some []
    else (word? flow cs).map (c :: ·)

/-- A tab stands before column `floor` in white space that starts at a column. -/
def tabBefore (floor : Nat) : Nat → List Char → Bool
  | _, [] => false
  | column, c :: cs =>
    (c = '\t' && column < floor) || tabBefore floor (if isBreak c then 0 else column + 1) cs

/-- What a plain scalar leaves behind: its text, and whether a line break came after it. -/
structure PlainScalar where
  text : List Char
  broken : Bool

/-- Reads on after `done` and the white space `space`. Lines are indented to column `floor` at
least, and tabs must not stand before it. -/
def plainFrom (flow : Bool) (floor : Nat) :
    Nat → Cursor → List Char → List Char → Option (PlainScalar × Cursor)
  | 0, _, _, _ => none
  | fuel + 1, here, done, space =>
    let stopped : PlainScalar × Cursor := (⟨done, space.any isBreak⟩, here)
    if here.atMarker || here.rest.head? = some '#' then some stopped
    else do
      let word ← word? flow here.rest
      if word.isEmpty then pure stopped
      else
        let done := done ++ foldSpace space ++ word
        let after := here.drop word.length
        let space := after.run isSpace
        let line := space.dropWhile isGap
        if tabBefore floor 0 (line.drop 1) then none
        else if space.isEmpty then pure (⟨done, false⟩, after)
        else
          let after := after.skip isSpace
          if !flow && after.column < floor then pure (⟨done, space.any isBreak⟩, after)
          else plainFrom flow floor fuel after done space

/-- Reads the plain scalar that comes first. -/
def plain? (flow : Bool) (floor : Nat) (here : Cursor) : Option (PlainScalar × Cursor) :=
  plainFrom flow floor (here.rest.length + 1) here [] []

end Dotpath.Yaml.Token
