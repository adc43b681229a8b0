import Dotpath.Yaml.Form.Anchors
import Dotpath.Yaml.Scalar
import Dotpath.Yaml.Token.Lexer

/-!
# Reading YAML

The value of a document: aliases are followed, tags applied and plain scalars resolved. A mapping
with two keys that are the same is refused, and so is nesting deeper than 128 collections or an
excess of aliases. Every fault is the same to the reader of a text.
-/

namespace Dotpath.Yaml

namespace Form

/-- Collections nest up to this depth. -/
def maxDepth : Nat := 128

/-- A local tag: one that starts with an exclamation mark and is text. -/
def localTag? (tag : List UInt8) : Option Tag :=
  match tag with
  | 33 :: _ =>
    match Text.decodeUtf8 tag with
    | .ok cs => some (Tag.ofText (Tag.ofText (.ofList cs)).name)
    | .error _ => none
  | _ => none

/-- The name of a standard tag, of which only four change what a scalar means. -/
def standardName (tag : List UInt8) : String :=
  match Text.decodeUtf8 tag with
  | .ok cs =>
    let stem := "tag:yaml.org,2002:".toList
    if stem.isPrefixOf cs then .ofList (cs.drop stem.length) else ""
  | .error _ => ""

/-- The value of a scalar without its local tag, if it has one. A standard tag takes part in it. -/
def scalarValue? (tag : Option (List UInt8)) (plain : Bool) (text : List Char) : Option Yaml :=
  let untagged := if plain then Scalar.plain? text else some (string (.ofList text))
  match tag with
  | none => untagged
  | some tag => if tag.head? = some 33 then untagged else Scalar.standard? (standardName tag) text

/-- How often aliases may still be followed. -/
abbrev Budget := StateT Nat Option

/-- The node itself, or what an alias leads to. -/
def follow (targets : Targets) : Numbered → Budget Numbered
  | reference n => fun budget =>
    if budget = 0 then none else (target? targets n).map (·, budget - 1)
  | form => pure form

/-- The mapping of the entries; `none` if two keys are the same. -/
def distinctEntries? (done : List (Yaml × Yaml)) :
    List (Budget Yaml × Budget Yaml) → Budget (List (Yaml × Yaml))
  | [] => pure done
  | (key, value) :: rest => do
    let key ← key
    if done.any (sameKey ·.1 key) then failure
    let value ← value
    distinctEntries? (done ++ [(key, value)]) rest

/-- The value of a node below its local tag, if it has one. `inner` gives the values of the parts of
a collection; it is missing where collections are too deep. -/
def untaggedValue (inner : Option (Numbered → Budget Yaml)) : Numbered → Budget Yaml
  | reference _ => failure
  | scalar marks plain text => fun budget => (scalarValue? marks.tag plain text).map (·, budget)
  | sequence _ items =>
    match inner with
    | none => failure
    | some inner => do pure (.sequence (← items.mapM inner))
  | mapping _ entries =>
    match inner with
    | none => failure
    | some inner => do
      let entries := entries.map fun entry => (inner entry.1, inner entry.2)
      pure (.mapping (← distinctEntries? [] entries))

def marksOf : Numbered → Marks
  | reference _ => ⟨none, none⟩
  | scalar marks _ _ => marks
  | sequence marks _ => marks
  | mapping marks _ => marks

/-- The value of a node whose alias has been followed. -/
def nodeValue (inner : Option (Numbered → Budget Yaml)) (form : Numbered) : Budget Yaml :=
  match (marksOf form).tag.bind localTag? with
  | some tag => do pure (.tagged tag (← untaggedValue inner form))
  | none => untaggedValue inner form

/-- The value of a node with `depth` levels of collections left below it. -/
def value (targets : Targets) : Nat → Numbered → Budget Yaml
  | 0, form => do nodeValue none (← follow targets form)
  | depth + 1, form => do nodeValue (some (value targets depth)) (← follow targets form)

/-- The value of a whole document. -/
def documentValue? (form : Written) : Option Yaml := do
  let (_, form, targets) ← numbered? [] form
  let (value, _) ← value targets maxDepth form (100 * form.size)
  pure value

end Form

/-- The value of a YAML text, which is null if the text holds no document; `none` if it has a
fault. -/
def parse? (text : String) : Option Yaml := do
  let tokens ← Token.ofText? text.toList
  match ← Form.ofTokens? tokens with
  | none => pure .null
  | some form => form.documentValue?

end Dotpath.Yaml
