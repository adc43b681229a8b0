import Dotpath.Config
import Dotpath.Yaml.Writable

/-!
# Edits of configuration files

An edit sets one path of a document to a raw text, which is read as a boolean, an integer or a float
if it looks like one. The new document is checked before it replaces the old one.
-/

namespace Dotpath

namespace Config

/-- The value that a raw text stands for. -/
def rawValue (text : String) : Yaml :=
  let cs := text.toList
  let lower := cs.map Char.toLower
  if lower = "true".toList then .bool true
  else if lower = "false".toList then .bool false
  else match (Literal.integer? 10 cs).filter (Word.holds true 64) with
    | some n => .number (.int n)
    | none =>
      match if cs.contains '.' then Literal.float? cs else none with
      | some value => .number (.float value)
      | none => .string text

/-- The document that an edit starts from; nothing and null count as an empty mapping. -/
def editable (path : String) : Option String → Except ConfigError Yaml
  | none => .ok (.mapping [])
  | some text =>
    match Yaml.parse? text with
    | none => .error (.parse path)
    | some document => .ok (if document.kind = .null then .mapping [] else document)

/-- The text of a document that will load again. -/
def writeDocument (path : String) (document : Yaml) : Except ConfigError String :=
  match document.write with
  | .error fault => .error (.render path fault)
  | .ok text => (ofText path text).map fun _ => text

/-- The document of a text with `place` set to the value of a raw text. The file's path is for
messages. -/
def patched (content : Option String) (place raw path : String) : Except ConfigError Yaml :=
  match Path.parse place with
  | .error fault => .error (.grammar fault)
  | .ok steps => do
    let document ← editable path content
    pure (steps.set document (rawValue raw))

/-- The text with `place` set to the value of a raw text. -/
def setInDocument (content : Option String) (place raw path : String) :
    Except ConfigError String := do
  writeDocument path (← patched content place raw path)

/-- Makes the folders that a file needs. -/
def makeWay (files : Files) (path : String) : Files × Except FileFault Unit :=
  let folder := FileName.parent path.toList
  if folder.isEmpty then (files, .ok ()) else files.createFolders folder

/-- Gives a file a new text, and makes the folders that it needs. A write that fails may have made
some of them, or have cut the file short. -/
def writeFile (files : Files) (path text : String) : Files × Except ConfigError Unit :=
  match makeWay files path with
  | (files, .error fault) =>
    (files, .error (.write (.ofList (FileName.parent path.toList)) fault))
  | (files, .ok ()) =>
    let (files, written) := files.write path (Files.bytesOf text)
    (files, written.mapError (.write path))

/-- Edits a file, which need not be there. -/
def persist (files : Files) (path place raw : String) : Files × Except ConfigError Unit :=
  match (do setInDocument (← readOptional files path) place raw path) with
  | .error fault => (files, .error fault)
  | .ok text => writeFile files path text

end Config

end Dotpath
