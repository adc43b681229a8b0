import Dotpath.Yaml.Writing

/-!
# Values with a written form

Some values have none: a tag directly below a tag, and a mapping with one entry whose key is tagged.
A value is written step by step, and the first step that does not fit decides what is reported.
-/

namespace Dotpath.Yaml

/-- Why a value has no written form. -/
inductive WriteFault where
  /-- A tag stands directly below another. -/
  | nestedTag
  /-- A collection ends in the midst of another one. -/
  | endInside
  /-- A collection ends outside all others. -/
  | endOutside
deriving DecidableEq, Repr

def WriteFault.message : WriteFault → String
  | nestedTag => "serializing nested enums in YAML is not supported yet"
  | endInside => "expected SCALAR, SEQUENCE-START, MAPPING-START, or ALIAS"
  | endOutside => "expected DOCUMENT-START or STREAM-END"

/-- What a value is written as, step by step. -/
inductive WriteStep where
  | scalar
  | start (isMapping : Bool)
  | finish (isMapping : Bool)
  | nestedTag
deriving DecidableEq, Repr

/-- The start of a mapping with one entry waits for its key, as the key could turn out to be a tag.
It is lost if that key is tagged or is a mapping of this kind itself. -/
def losesStart : List (Yaml × Yaml) → Bool
  | [(tagged _ _, _)] => true
  | [(mapping [_], _)] => true
  | _ => false

mutual

/-- The steps of a value, which may stand directly below a tag. -/
def writeSteps (belowTag : Bool) : Yaml → List WriteStep
  | tagged _ value => if belowTag then [.nestedTag] else writeSteps true value
  | sequence items => .start false :: itemSteps items ++ [.finish false]
  | mapping entries =>
    (if !belowTag && losesStart entries then [] else [.start true])
      ++ entrySteps entries ++ [.finish true]
  | _ => [.scalar]

def itemSteps : List Yaml → List WriteStep
  | [] => []
  | item :: rest => writeSteps false item ++ itemSteps rest

def entrySteps : List (Yaml × Yaml) → List WriteStep
  | [] => []
  | (key, value) :: rest => writeSteps false key ++ writeSteps false value ++ entrySteps rest

end

/-- A collection that has been started. -/
inductive Started where
  | items
  /-- The next node is a value, or else a key or the end. -/
  | entries (valueNext : Bool)
deriving DecidableEq, Repr

/-- One more node stands in the innermost collection. -/
def countNode : List Started → List Started
  | .entries valueNext :: outer => .entries (!valueNext) :: outer
  | stack => stack

/-- The first fault of the steps, with the collections that have been started before them. -/
def stepFault? (stack : List Started) : List WriteStep → Option WriteFault
  | [] => none
  | .nestedTag :: _ => some .nestedTag
  | .scalar :: rest => stepFault? (countNode stack) rest
  | .start isMapping :: rest =>
    stepFault? ((if isMapping then .entries false else .items) :: countNode stack) rest
  | .finish isMapping :: rest =>
    match stack with
    | [] => some .endOutside
    | top :: outer =>
      if top = (if isMapping then .entries false else .items) then stepFault? outer rest
      else some .endInside

/-- The written form of a document. -/
def write (document : Yaml) : Except WriteFault String :=
  match stepFault? [] (writeSteps false document) with
  | some fault => .error fault
  | none => .ok document.render

end Dotpath.Yaml
