/-!
# Places in a YAML text

A cursor is what is left of a text together with the place it has come to. Lines end at line feeds,
which stand for every usual line end, and at the two Unicode separators.
-/

namespace Dotpath.Yaml

/-- The characters that a document may hold. -/
def isAllowed (c : Char) : Bool :=
  let n := c.toNat
  c = '\t' || c = '\n' || c = '\r' || (0x20 ≤ n && n ≤ 0x7E) || n = 0x85 || (0xA0 ≤ n && n ≤ 0xD7FF)
    || (0xE000 ≤ n && n ≤ 0xFFFD) || 0x10000 ≤ n

/-- Turns each usual line end, of one character or two, into a line feed. -/
def unifyBreaks : List Char → List Char
  | [] => []
  | '\r' :: '\n' :: cs => '\n' :: unifyBreaks cs
  | c :: cs => (if c = '\r' ∨ c = '\x85' then '\n' else c) :: unifyBreaks cs

/-- A line ends here. -/
def isBreak (c : Char) : Bool :=
  c = '\n' || c = '\u2028' || c = '\u2029'

/-- A space or a tab. -/
def isGap (c : Char) : Bool :=
  c = ' ' || c = '\t'

def isSpace (c : Char) : Bool :=
  isGap c || isBreak c

/-- A letter, digit, hyphen or underscore. -/
def isWordChar (c : Char) : Bool :=
  c.isAlphanum || c = '-' || c = '_'

/-- Nothing or white space comes first. -/
def endsWord (cs : List Char) : Bool :=
  cs.head?.all isSpace

/-- The text left, and the index, line and column it starts at. -/
structure Cursor where
  rest : List Char
  index : Nat
  line : Nat
  column : Nat

namespace Cursor

def start (text : List Char) : Cursor :=
  ⟨text, 0, 0, 0⟩

/-- Moves past one character. -/
def next (here : Cursor) : Cursor :=
  match here.rest with
  | [] => here
  | c :: rest =>
    if isBreak c then ⟨rest, here.index + 1, here.line + 1, 0⟩
    else ⟨rest, here.index + 1, here.line, here.column + 1⟩

def drop (here : Cursor) : Nat → Cursor
  | 0 => here
  | n + 1 => here.next.drop n

/-- The characters ahead that pass a test, up to the first that does not. -/
def run (here : Cursor) (test : Char → Bool) : List Char :=
  here.rest.takeWhile test

/-- Moves past the characters that pass a test. -/
def skip (here : Cursor) (test : Char → Bool) : Cursor :=
  here.drop (here.run test).length

/-- Moves to the end of the line. -/
def skipLine (here : Cursor) : Cursor :=
  here.skip (!isBreak ·)

/-- Three hyphens or three points stand alone at the start of a line: a document begins or ends. -/
def atMarker (here : Cursor) : Bool :=
  here.column = 0 &&
    match here.rest with
    | '-' :: '-' :: '-' :: rest => endsWord rest
    | '.' :: '.' :: '.' :: rest => endsWord rest
    | _ => false

end Cursor

end Dotpath.Yaml
