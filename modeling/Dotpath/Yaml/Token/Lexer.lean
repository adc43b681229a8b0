import Dotpath.Yaml.Token.Block
import Dotpath.Yaml.Token.Name
import Dotpath.Yaml.Token.Plain

/-!
# The tokens of a text

Indentation opens and closes block collections. What a mapping key is shows only at its colon, so
each place where a key may have started is remembered, one for each open flow collection, and the
key token is put there afterwards. Such a key stays on one line and within 1024 characters.
-/

namespace Dotpath.Yaml

/-- Where a key may have started. -/
structure KeyStart where
  index : Nat
  line : Nat
  column : Nat
  /-- How many tokens came before it. -/
  before : Nat
  /-- It stands where the block mapping it is in can have nothing but a key. -/
  required : Bool

structure Lexer where
  here : Cursor
  /-- The tokens so far, last one first. -/
  tokens : List Token
  /-- The columns of the open block collections, innermost first. -/
  columns : List Nat
  /-- A key may start here. -/
  keyAllowed : Bool
  /-- The possible key in the innermost flow collection, or outside all. -/
  key : Option KeyStart
  /-- The possible keys around the open flow collections, innermost first. -/
  outer : List (Option KeyStart)

namespace Lexer

def start (text : List Char) : Lexer :=
  ⟨.start text, [], [], true, none, []⟩

/-- Inside a flow collection. -/
def inFlow (lexer : Lexer) : Bool :=
  !lexer.outer.isEmpty

/-- The least column that the lines of a scalar may start at. -/
def floor (lexer : Lexer) : Nat :=
  (lexer.columns.head?.map (· + 1)).getD 0

/-- Passes the characters of a token and adds it. -/
def take (lexer : Lexer) (length : Nat) (token : Token) : Lexer :=
  { lexer with here := lexer.here.drop length, tokens := token :: lexer.tokens }

/-- Puts tokens, last one first, behind the first `before` tokens. -/
def insert (lexer : Lexer) (before : Nat) (tokens : List Token) : Lexer :=
  let later := lexer.tokens.length - before
  { lexer with tokens := lexer.tokens.take later ++ tokens ++ lexer.tokens.drop later }

/-- Passes white space and comments, and a byte order mark at the start of each line, which takes up
a column. Tabs do not count as white space where a key may start outside flow collections, and there
a new line makes room for a key. -/
def skipSpace : Nat → Lexer → Lexer
  | 0, lexer => lexer
  | fuel + 1, lexer =>
    let tabs := lexer.inFlow || !lexer.keyAllowed
    let here := lexer.here
    let here := if here.column = 0 && here.rest.head? = some '\ufeff' then here.next else here
    let here := here.skip fun c => c = ' ' || (tabs && c = '\t')
    let here := if here.rest.head? = some '#' then here.skipLine else here
    if here.rest.head?.any isBreak then
      skipSpace fuel
        { lexer with here := here.next, keyAllowed := lexer.keyAllowed || !lexer.inFlow }
    else { lexer with here }

/-- Gives up a possible key; `none` if it was required. -/
def dropKey? (lexer : Lexer) : Option Lexer :=
  if lexer.key.any (·.required) then none else some { lexer with key := none }

/-- The key is out of reach: on an earlier line, or too far back. -/
def isStale (lexer : Lexer) (key : KeyStart) : Bool :=
  key.line < lexer.here.line || key.index + 1024 < lexer.here.index

/-- Gives up the possible keys that are out of reach; `none` if one of them was required. -/
def dropStale? (lexer : Lexer) : Option Lexer :=
  let fresh (key : Option KeyStart) := key.filter (!lexer.isStale ·)
  if (lexer.key :: lexer.outer).any (·.any fun key => key.required && lexer.isStale key) then none
  else some { lexer with key := fresh lexer.key, outer := lexer.outer.map fresh }

/-- Closes the block collections that are indented further than a column. -/
def closeBeyond (lexer : Lexer) (column : Nat) : Lexer :=
  if lexer.inFlow then lexer
  else
    let closed := lexer.columns.takeWhile (column < ·)
    { lexer with
      columns := lexer.columns.drop closed.length
      tokens := closed.map (fun _ => .blockEnd) ++ lexer.tokens }

/-- Closes all block collections. -/
def closeAll (lexer : Lexer) : Lexer :=
  if lexer.inFlow then lexer
  else
    { lexer with columns := [], tokens := lexer.columns.map (fun _ => .blockEnd) ++ lexer.tokens }

/-- A column where a block collection would open. -/
def opensAt (lexer : Lexer) (column : Nat) : Bool :=
  !lexer.inFlow && lexer.columns.head?.all (· < column)

/-- Opens a block collection here unless one is open at this column. -/
def openBlock (lexer : Lexer) (token : Token) : Lexer :=
  let column := lexer.here.column
  if lexer.opensAt column then
    { lexer with columns := column :: lexer.columns, tokens := token :: lexer.tokens }
  else lexer

/-- Remembers that a key may start here, if one may. -/
def markKey? (lexer : Lexer) : Option Lexer :=
  if lexer.keyAllowed then do
    let lexer ← lexer.dropKey?
    let required := !lexer.inFlow && lexer.columns.head? = some lexer.here.column
    let here := lexer.here
    pure { lexer with
      key := some ⟨here.index, here.line, here.column, lexer.tokens.length, required⟩ }
  else some lexer

/-- Adds a token that may be a key, or the start of one. -/
def takeNode? (lexer : Lexer) (read : Cursor → Option (Token × Cursor)) : Option Lexer := do
  let lexer ← lexer.markKey?
  let (token, here) ← read lexer.here
  pure { lexer with here, keyAllowed := false, tokens := token :: lexer.tokens }

/-- An opening bracket. -/
def openFlow? (lexer : Lexer) (token : Token) : Option Lexer := do
  let lexer ← lexer.markKey?
  let inside := { lexer with key := none, outer := lexer.key :: lexer.outer, keyAllowed := true }
  pure (inside.take 1 token)

/-- A closing bracket. -/
def closeFlow? (lexer : Lexer) (token : Token) : Option Lexer := do
  let lexer ← lexer.dropKey?
  let lexer := match lexer.outer with
    | [] => lexer
    | key :: outer => { lexer with key, outer }
  pure ({ lexer with keyAllowed := false }.take 1 token)

def comma? (lexer : Lexer) : Option Lexer := do
  let lexer ← lexer.dropKey?
  pure ({ lexer with keyAllowed := true }.take 1 .comma)

/-- The hyphen of an item. -/
def item? (lexer : Lexer) : Option Lexer := do
  if !lexer.inFlow && !lexer.keyAllowed then none
  let lexer ← (lexer.openBlock .blockSequence).dropKey?
  pure ({ lexer with keyAllowed := true }.take 1 .item)

/-- The question mark of a key. -/
def key? (lexer : Lexer) : Option Lexer := do
  if !lexer.inFlow && !lexer.keyAllowed then none
  let lexer ← (lexer.openBlock .blockMapping).dropKey?
  pure ({ lexer with keyAllowed := !lexer.inFlow }.take 1 .key)

/-- The colon of a value. It makes a key of what may have been one, and opens a block mapping
there. -/
def value? (lexer : Lexer) : Option Lexer :=
  match lexer.key with
  | some key =>
    let opens := lexer.opensAt key.column
    let lexer := lexer.insert key.before (if opens then [.key, .blockMapping] else [.key])
    let columns := if opens then key.column :: lexer.columns else lexer.columns
    some ({ lexer with columns, key := none, keyAllowed := false }.take 1 .value)
  | none =>
    if !lexer.inFlow && !lexer.keyAllowed then none
    else
      let lexer := lexer.openBlock .blockMapping
      some ({ lexer with keyAllowed := !lexer.inFlow }.take 1 .value)

/-- A document marker or a directive, which closes all block collections. -/
def takeMarker? (lexer : Lexer) (read : Cursor → Option (Token × Cursor)) : Option Lexer := do
  let lexer ← lexer.closeAll.dropKey?
  let (token, here) ← read lexer.here
  pure { lexer with here, keyAllowed := false, tokens := token :: lexer.tokens }

def blockScalar? (lexer : Lexer) (literal : Bool) : Option Lexer := do
  let lexer ← lexer.dropKey?
  let (text, here) ← Token.block? literal lexer.columns.head? lexer.here
  pure { lexer with here, keyAllowed := true, tokens := .scalar false text :: lexer.tokens }

/-- A line break after a plain scalar makes room for a key. -/
def plainScalar? (lexer : Lexer) : Option Lexer := do
  let lexer ← lexer.markKey?
  let (scalar, here) ← Token.plain? lexer.inFlow lexer.floor lexer.here
  pure { lexer with
    here, keyAllowed := scalar.broken, tokens := .scalar true scalar.text :: lexer.tokens }

/-- The characters that no plain scalar starts with; a few of them do if a word goes on. -/
def isIndicator (c : Char) : Bool :=
  ['-', '?', ':', ',', '[', ']', '\x7b', '\x7d', '#', '&', '*', '!', '|', '>', '\'', '"', '%', '@',
    '\x60']
    |>.contains c

/-- A plain scalar starts with `c` before `rest`. -/
def startsPlain (lexer : Lexer) (c : Char) (rest : List Char) : Bool :=
  (!isSpace c && !isIndicator c) || (c = '-' && !rest.head?.any isGap)
    || (!lexer.inFlow && (c = '?' || c = ':') && !endsWord rest)

/-- Adds the token that starts with `c` before `rest`. -/
def token? (lexer : Lexer) (c : Char) (rest : List Char) : Option Lexer :=
  if lexer.here.column = 0 && c = '%' then lexer.takeMarker? Token.directive?
  else if lexer.here.atMarker then
    lexer.takeMarker? fun here =>
      some (if c = '-' then .documentStart else .documentEnd, here.drop 3)
  else match c with
    | '[' => lexer.openFlow? .flowSequence
    | '\x7b' => lexer.openFlow? .flowMapping
    | ']' => lexer.closeFlow? .flowSequenceEnd
    | '\x7d' => lexer.closeFlow? .flowMappingEnd
    | ',' => lexer.comma?
    | '*' => lexer.takeNode? (named .reference)
    | '&' => lexer.takeNode? (named .anchor)
    | '!' => lexer.takeNode? (Token.tag? lexer.inFlow)
    | '\'' => lexer.takeNode? (quoted true)
    | '"' => lexer.takeNode? (quoted false)
    | _ =>
      if c = '-' && endsWord rest then lexer.item?
      else if c = '?' && (lexer.inFlow || endsWord rest) then lexer.key?
      else if c = ':' && (lexer.inFlow || endsWord rest) then lexer.value?
      else if c = '|' && !lexer.inFlow then lexer.blockScalar? true
      else if c = '>' && !lexer.inFlow then lexer.blockScalar? false
      else if lexer.startsPlain c rest then lexer.plainScalar?
      else none
where
  named (token : List Char → Token) (here : Cursor) : Option (Token × Cursor) :=
    (Token.name? here).map fun (name, here) => (token name, here)
  quoted (single : Bool) (here : Cursor) : Option (Token × Cursor) :=
    (Token.quoted? single here).map fun (text, here) => (.scalar false text, here)

/-- Adds tokens up to the end of the text. -/
def run? : Nat → Lexer → Option (List Token)
  | 0, _ => none
  | fuel + 1, lexer => do
    let lexer ← (lexer.skipSpace (lexer.here.rest.length + 1)).dropStale?
    let lexer := lexer.closeBeyond lexer.here.column
    match lexer.here.rest with
    | [] => (lexer.closeAll.dropKey?).map (·.tokens.reverse)
    | c :: rest => run? fuel (← lexer.token? c rest)

end Lexer

/-- The tokens of a text; `none` if there is something in it that starts no token, or a token that
does not end. -/
def Token.ofText? (text : List Char) : Option (List Token) :=
  if text.all isAllowed then (Lexer.start (unifyBreaks text)).run? (text.length + 1) else none

end Dotpath.Yaml
