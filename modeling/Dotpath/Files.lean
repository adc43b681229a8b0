import Dotpath.FileName
import Dotpath.Text.Utf8

/-!
# Files

A tree of folders and files as a value. Every entry is kept under the segments that lead to it from
the working directory, which is the root. Operations fail with the faults that a file system
reports. Creating folders can fail half-way, and so can writing a file: it is emptied first, and a
device in trouble may take only a part of the new contents.
-/

namespace Dotpath

/-- What a device reports that does not do its part. -/
inductive DeviceFault where
  | noPermission
  | readOnly
  | inputOutput
  | fileTooLarge
  | noSpace
  | quotaExceeded
deriving DecidableEq, Repr

def DeviceFault.message : DeviceFault → String
  | noPermission => "Permission denied (os error 13)"
  | readOnly => "Read-only file system (os error 30)"
  | inputOutput => "Input/output error (os error 5)"
  | fileTooLarge => "File too large (os error 27)"
  | noSpace => "No space left on device (os error 28)"
  | quotaExceeded => "Disk quota exceeded (os error 122)"

/-- Why a file cannot be read or written. -/
inductive FileFault where
  | notFound
  | alreadyExists
  | notAFolder
  | isAFolder
  | nameTooLong
  | nullInName
  | notText
  | device (fault : DeviceFault)
deriving DecidableEq, Repr

def FileFault.message : FileFault → String
  | notFound => "No such file or directory (os error 2)"
  | alreadyExists => "File exists (os error 17)"
  | notAFolder => "Not a directory (os error 20)"
  | isAFolder => "Is a directory (os error 21)"
  | nameTooLong => "File name too long (os error 36)"
  | nullInName => "file name contained an unexpected NUL byte"
  | notText => "stream did not contain valid UTF-8"
  | device fault => fault.message

/-- The segments from the root to an entry. -/
abbrev Location := List (List Char)

inductive FileEntry where
  | folder
  | file (bytes : List UInt8)
deriving DecidableEq, Repr

/-- What the device does not do although the tree of files would allow it. -/
inductive Trouble where
  /-- No folder is made and no file is opened for writing at a location. -/
  | shut (location : Location) (fault : DeviceFault)
  /-- A file takes no more than its first `room` bytes. -/
  | full (room : Nat) (fault : DeviceFault)
deriving DecidableEq, Repr

structure Files where
  entries : List (Location × FileEntry)
  /-- The trouble that the device is in. It concerns writing only. -/
  trouble : Option Trouble
deriving DecidableEq, Repr

namespace Files

/-- Entries on a device that does its part. -/
def ofEntries (entries : List (Location × FileEntry)) : Files :=
  ⟨entries, none⟩

def empty : Files := ofEntries []

instance : EmptyCollection Files := ⟨empty⟩

instance : Inhabited Files := ⟨empty⟩

/-- The entry at a location; the root is always there. -/
def find? (files : Files) (location : Location) : Option FileEntry :=
  if location.isEmpty then some .folder else files.entries.lookup location

/-- Gives a location an entry. -/
def put (files : Files) (location : Location) (entry : FileEntry) : Files :=
  { files with entries := (location, entry) :: files.entries.filter (·.1 ≠ location) }

/-- Takes away an entry and all below it. -/
def remove (files : Files) (location : Location) : Files :=
  { files with entries := files.entries.filter fun entry => !location.isPrefixOf entry.1 }

def maxSegmentLength : Nat := 255

def maxNameLength : Nat := 4095

/-- The location that one more segment leads to. -/
def enter (reached : Location) (segment : List Char) : Location :=
  if segment = ['.', '.'] then reached.dropLast else reached ++ [segment]

/-- Follows segments from `reached`. Only the last of them may be missing. -/
def walk (files : Files) (reached : Location) : List (List Char) → Except FileFault Location
  | [] => .ok reached
  | segment :: rest =>
    match files.find? reached with
    | none => .error .notFound
    | some (.file _) => .error .notAFolder
    | some .folder =>
      if Text.byteLength segment > maxSegmentLength then .error .nameTooLong
      else walk files (enter reached segment) rest

/-- Names that no file system takes. -/
def nameFault? (name : List Char) : Option FileFault :=
  if name.contains '\x00' then some .nullInName
  else if name.isEmpty then some .notFound
  else if Text.byteLength name > maxNameLength then some .nameTooLong
  else none

/-- The location that a name leads to. -/
def locate (files : Files) (name : List Char) : Except FileFault Location :=
  match nameFault? name with
  | some fault => .error fault
  | none => walk files [] (FileName.segments name)

/-- The bytes of a file. -/
def readBytes (files : Files) (name : String) : Except FileFault (List UInt8) := do
  let location ← files.locate name.toList
  match files.find? location with
  | none => .error .notFound
  | some .folder => .error .isAFolder
  | some (.file bytes) =>
    if FileName.namesFolder name.toList then .error .notAFolder else .ok bytes

/-- The text of a file. -/
def readText (files : Files) (name : String) : Except FileFault String := do
  match Text.decodeUtf8 (← files.readBytes name) with
  | .ok cs => .ok (.ofList cs)
  | .error _ => .error .notText

/-- The fault of making or opening something at a location, if the device does not do it. -/
def shut? (files : Files) (location : Location) : Option FileFault :=
  match files.trouble with
  | some (.shut place fault) => if place = location then some (.device fault) else none
  | _ => none

/-- Makes the folders that are missing on the way along segments from `reached`. -/
def makeFolders (files : Files) (reached : Location) :
    List (List Char) → Files × Except FileFault Unit
  | [] => (files, .ok ())
  | segment :: rest =>
    let next := enter reached segment
    match files.find? next with
    | some .folder => makeFolders files next rest
    | some (.file _) => (files, .error (if rest.isEmpty then .alreadyExists else .notAFolder))
    | none =>
      if Text.byteLength segment > maxSegmentLength then (files, .error .nameTooLong)
      else match files.shut? next with
        | some fault => (files, .error fault)
        | none => makeFolders (files.put next .folder) next rest

/-- Makes a folder and those that it needs. -/
def createFolders (files : Files) (name : List Char) : Files × Except FileFault Unit :=
  match nameFault? name with
  | some fault => (files, .error fault)
  | none => makeFolders files [] (FileName.segments name)

/-- Gives a file contents that the device has taken, and makes the file if there is none. -/
def writeBytes (files : Files) (name : String) (bytes : List UInt8) : Except FileFault Files := do
  let location ← files.locate name.toList
  if FileName.namesFolder name.toList then .error .isAFolder
  else match files.find? location with
    | some .folder => .error .isAFolder
    | _ =>
      match files.shut? location with
      | some fault => .error fault
      | none => .ok (files.put location (.file bytes))

/-- The part of new contents that the device takes, and the fault if it is not all. -/
def taken (files : Files) (bytes : List UInt8) : List UInt8 × Except FileFault Unit :=
  match files.trouble with
  | some (.full room fault) =>
    if bytes.length ≤ room then (bytes, .ok ()) else (bytes.take room, .error (.device fault))
  | _ => (bytes, .ok ())

/-- Empties a file and writes its new contents, or as much of them as the device takes. -/
def write (files : Files) (name : String) (bytes : List UInt8) : Files × Except FileFault Unit :=
  let (part, done) := files.taken bytes
  match files.writeBytes name part with
  | .error fault => (files, .error fault)
  | .ok after => (after, done)

/-- The bytes of a text. -/
def bytesOf (text : String) : List UInt8 :=
  text.toList.flatMap Text.encodeUtf8

end Files

end Dotpath
