import Dotpath.Yaml.Form.Grammar

/-!
# Anchors and aliases

Every anchor gets a number, which is the count of distinct names before it, and every alias the
number that its name has by then. A number stands for the last node it was given to: where a name
was given out again, its number can be that of the next new name too.
-/

namespace Dotpath.Yaml.Form

/-- A form whose aliases have numbers. -/
abbrev Numbered := Form Nat

/-- The numbers that names have by now, each name once. -/
abbrev Names := List (List Char × Nat)

/-- The nodes that numbers were given to, in document order. -/
abbrev Targets := List (Nat × Numbered)

/-- Gives an anchor its number, which it returns. -/
def declare (names : Names) : Option (List Char) → Names × Option Nat
  | none => (names, none)
  | some name =>
    ((name, names.length) :: names.filter (·.1 ≠ name), some names.length)

/-- The target that a node with this number is. -/
def asTarget (n : Option Nat) (form : Numbered) : Targets :=
  (n.map (·, form)).toList

mutual

/-- Numbers the aliases of a form; `none` if one of them has no anchor before it. -/
def numbered? (names : Names) : Written → Option (Names × Numbered × Targets)
  | reference name => (names.lookup name).map fun n => (names, reference n, [])
  | scalar marks plain text =>
    let (names, n) := declare names marks.anchor
    some (names, scalar marks plain text, asTarget n (scalar marks plain text))
  | sequence marks items =>
    let (names, n) := declare names marks.anchor
    (numberedItems? names items).map fun (names, items, targets) =>
      (names, sequence marks items, asTarget n (sequence marks items) ++ targets)
  | mapping marks entries =>
    let (names, n) := declare names marks.anchor
    (numberedEntries? names entries).map fun (names, entries, targets) =>
      (names, mapping marks entries, asTarget n (mapping marks entries) ++ targets)

def numberedItems? (names : Names) : List Written → Option (Names × List Numbered × Targets)
  | [] => some (names, [], [])
  | item :: rest => do
    let (names, item, targets) ← numbered? names item
    let (names, rest, others) ← numberedItems? names rest
    pure (names, item :: rest, targets ++ others)

def numberedEntries? (names : Names) :
    List (Written × Written) → Option (Names × List (Numbered × Numbered) × Targets)
  | [] => some (names, [], [])
  | (key, value) :: rest => do
    let (names, key, ofKey) ← numbered? names key
    let (names, value, ofValue) ← numbered? names value
    let (names, rest, others) ← numberedEntries? names rest
    pure (names, (key, value) :: rest, ofKey ++ ofValue ++ others)

end

/-- The node that a number stands for. -/
def target? (targets : Targets) (n : Nat) : Option Numbered :=
  targets.reverse.lookup n

end Dotpath.Yaml.Form
