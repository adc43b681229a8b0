import Dotpath.Yaml.Form
import Dotpath.Yaml.Token

/-!
# The grammar of nodes

How tokens make up the form of a document. Each reader gives the node and the tokens after it. Where
a key, value or item is missing, an empty node stands in.
-/

namespace Dotpath.Yaml.Form

/-- What handles stand for. -/
abbrev Handles := List (List Char × List UInt8)

/-- A form as written, with aliases by name. -/
abbrev Written := Form (List Char)

/-- The tag in full; `none` if its handle is not defined. -/
def resolveTag (handles : Handles) (handle : List Char) (suffix : List UInt8) :
    Option (List UInt8) :=
  if handle.isEmpty then some suffix else (handles.lookup handle).map (· ++ suffix)

/-- Reads an anchor and a tag, each of which can be missing and either of which can come first. -/
def marks? (handles : Handles) : List Token → Option (Marks × List Token)
  | .anchor name :: .tag handle suffix :: rest =>
    (resolveTag handles handle suffix).map fun tag => (⟨some name, some tag⟩, rest)
  | .anchor name :: rest => some (⟨some name, none⟩, rest)
  | .tag handle suffix :: .anchor name :: rest =>
    (resolveTag handles handle suffix).map fun tag => (⟨some name, some tag⟩, rest)
  | .tag handle suffix :: rest =>
    (resolveTag handles handle suffix).map fun tag => (⟨none, some tag⟩, rest)
  | rest => some (⟨none, none⟩, rest)

/-- Nothing is written before one of these tokens. -/
def missing (stops : List Token) (tokens : List Token) : Bool :=
  tokens.head?.any (stops.contains ·)

/-- Where a node may be written. -/
structure Place where
  /-- Block collections are allowed. -/
  block : Bool
  /-- Items are allowed without a block of their own. -/
  bareItems : Bool

def Place.flow : Place := ⟨false, false⟩
def Place.item : Place := ⟨true, false⟩
def Place.entry : Place := ⟨true, true⟩

mutual

/-- Reads a node. -/
def node (handles : Handles) : Nat → Place → List Token → Option (Written × List Token)
  | 0, _, _ => none
  | _ + 1, _, .reference name :: rest => some (reference name, rest)
  | fuel + 1, place, tokens => do
    let (marks, rest) ← marks? handles tokens
    let bare := if marks = ⟨none, none⟩ then none else some (scalar marks true [], rest)
    match rest with
    | .scalar plain text :: rest => pure (scalar marks plain text, rest)
    | .flowSequence :: rest =>
      let (items, rest) ← flowItems handles fuel true rest
      pure (sequence marks items, rest)
    | .flowMapping :: rest =>
      let (entries, rest) ← flowEntries handles fuel true rest
      pure (mapping marks entries, rest)
    | .item :: _ =>
      if place.bareItems then
        let (items, rest) ← bareItems handles fuel rest
        pure (sequence marks items, rest)
      else bare
    | .blockSequence :: after =>
      if place.block then
        let (items, rest) ← blockItems handles fuel after
        pure (sequence marks items, rest)
      else bare
    | .blockMapping :: after =>
      if place.block then
        let (entries, rest) ← blockEntries handles fuel after
        pure (mapping marks entries, rest)
      else bare
    | _ => bare

/-- Reads a node unless one of `stops` comes first. -/
def slot (handles : Handles) : Nat → List Token → Place → List Token → Option (Written × List Token)
  | 0, _, _, _ => none
  | fuel + 1, stops, place, tokens =>
    if missing stops tokens then some (empty, tokens) else node handles fuel place tokens

/-- Reads the items of a block sequence and its end. -/
def blockItems (handles : Handles) : Nat → List Token → Option (List Written × List Token)
  | 0, _ => none
  | _ + 1, .blockEnd :: rest => some ([], rest)
  | fuel + 1, .item :: rest => do
    let (item, rest) ← slot handles fuel [.item, .blockEnd] .item rest
    let (items, rest) ← blockItems handles fuel rest
    pure (item :: items, rest)
  | _ + 1, _ => none

/-- Reads items that have no block of their own, which end where something else comes. -/
def bareItems (handles : Handles) : Nat → List Token → Option (List Written × List Token)
  | 0, _ => none
  | fuel + 1, .item :: rest => do
    let (item, rest) ← slot handles fuel [.item, .key, .value, .blockEnd] .item rest
    let (items, rest) ← bareItems handles fuel rest
    pure (item :: items, rest)
  | _ + 1, rest => some ([], rest)

/-- Reads the entries of a block mapping and its end. -/
def blockEntries (handles : Handles) :
    Nat → List Token → Option (List (Written × Written) × List Token)
  | 0, _ => none
  | _ + 1, .blockEnd :: rest => some ([], rest)
  | fuel + 1, .key :: rest => do
    let (key, rest) ← slot handles fuel [.key, .value, .blockEnd] .entry rest
    let (value, rest) ← blockValue handles fuel rest
    let (entries, rest) ← blockEntries handles fuel rest
    pure ((key, value) :: entries, rest)
  | _ + 1, _ => none

def blockValue (handles : Handles) : Nat → List Token → Option (Written × List Token)
  | 0, _ => none
  | fuel + 1, .value :: rest => slot handles fuel [.key, .value, .blockEnd] .entry rest
  | _ + 1, rest => some (empty, rest)

/-- Reads the items of a flow sequence and its end. -/
def flowItems (handles : Handles) : Nat → Bool → List Token → Option (List Written × List Token)
  | 0, _, _ => none
  | _ + 1, _, .flowSequenceEnd :: rest => some ([], rest)
  | fuel + 1, first, tokens => do
    match ← afterComma first tokens with
    | .flowSequenceEnd :: rest => pure ([], rest)
    | .key :: rest =>
      let (key, rest) ← pairKey handles fuel rest
      let (value, rest) ← flowValue handles fuel .flowSequenceEnd rest
      let (items, rest) ← flowItems handles fuel false rest
      pure (mapping ⟨none, none⟩ [(key, value)] :: items, rest)
    | rest =>
      let (item, rest) ← node handles fuel .flow rest
      let (items, rest) ← flowItems handles fuel false rest
      pure (item :: items, rest)

/-- The tokens after the comma that every item but the first needs. -/
def afterComma (first : Bool) (tokens : List Token) : Option (List Token) :=
  if first then some tokens
  else match tokens with
    | .comma :: rest => some rest
    | _ => none

/-- Reads the key of a pair in a flow sequence. A missing key takes the token after it along. -/
def pairKey (handles : Handles) : Nat → List Token → Option (Written × List Token)
  | 0, _ => none
  | fuel + 1, tokens =>
    if missing [.value, .comma, .flowSequenceEnd] tokens then some (empty, tokens.drop 1)
    else node handles fuel .flow tokens

/-- Reads a value in a flow collection that ends with `close`. -/
def flowValue (handles : Handles) : Nat → Token → List Token → Option (Written × List Token)
  | 0, _, _ => none
  | fuel + 1, close, .value :: rest => slot handles fuel [.comma, close] .flow rest
  | _ + 1, _, rest => some (empty, rest)

/-- Reads the entries of a flow mapping and its end. -/
def flowEntries (handles : Handles) :
    Nat → Bool → List Token → Option (List (Written × Written) × List Token)
  | 0, _, _ => none
  | _ + 1, _, .flowMappingEnd :: rest => some ([], rest)
  | fuel + 1, first, tokens => do
    match ← afterComma first tokens with
    | .flowMappingEnd :: rest => pure ([], rest)
    | .key :: rest =>
      let (key, rest) ← slot handles fuel [.value, .comma, .flowMappingEnd] .flow rest
      let (value, rest) ← flowValue handles fuel .flowMappingEnd rest
      let (entries, rest) ← flowEntries handles fuel false rest
      pure ((key, value) :: entries, rest)
    | rest =>
      let (key, rest) ← node handles fuel .flow rest
      let (entries, rest) ← flowEntries handles fuel false rest
      pure ((key, empty) :: entries, rest)

end

/-- What a document declares before it starts. -/
structure Directives where
  versioned : Bool
  handles : Handles

/-- Reads directives, none of which may be repeated, and the marker after them. -/
def directives? (done : Directives) : List Token → Option (Directives × List Token)
  | .version major minor :: rest =>
    if done.versioned || major ≠ 1 || (minor ≠ 1 && minor ≠ 2) then none
    else directives? { done with versioned := true } rest
  | .handle name stem :: rest =>
    if (done.handles.lookup name).isSome then none
    else directives? { done with handles := (name, stem) :: done.handles } rest
  | .documentStart :: rest => some (done, rest)
  | _ => none

/-- The handles that need no directive; a directive can change them. -/
def standardHandles : Handles :=
  [(['!'], "!".toList.map (.ofNat ·.toNat)),
   (['!', '!'], "tag:yaml.org,2002:".toList.map (.ofNat ·.toNat))]

/-- A document starts with a marker or directives. -/
def startsMarked : List Token → Bool
  | .version _ _ :: _ => true
  | .handle _ _ :: _ => true
  | .documentStart :: _ => true
  | _ => false

/-- The only document that tokens make up: nothing if there are none, and only end markers may
follow it. -/
def ofTokens? (tokens : List Token) : Option (Option Written) := do
  if tokens.isEmpty then return none
  let fuel := 3 * tokens.length + 3
  let (form, rest) ←
    if startsMarked tokens then do
      let (declared, rest) ← directives? ⟨false, []⟩ tokens
      let ends := rest.isEmpty || startsMarked rest || rest.head? = some .documentEnd
      if ends then some (empty, rest)
      else node (declared.handles ++ standardHandles) fuel .item rest
    else node standardHandles fuel .item tokens
  if rest.all (· = .documentEnd) then return some form else none

end Dotpath.Yaml.Form
