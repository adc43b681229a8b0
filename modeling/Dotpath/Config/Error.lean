import Dotpath.Access
import Dotpath.EnvFile.Line
import Dotpath.Files
import Dotpath.Yaml.Writable

/-!
# Errors of configurations

Why a configuration or an env file cannot be loaded, read or written, with the message for each
cause. The message on a text that is no YAML ends with the words of the reader, which are not told
here.
-/

namespace Dotpath

/-- Why an env file has no entries. -/
inductive EnvFault where
  | line (fault : EnvFile.LineFault)
  /-- The file is not text. -/
  | encoding (fault : Text.Utf8Fault)
deriving DecidableEq, Repr

def EnvFault.message : EnvFault → String
  | line fault =>
    "Error parsing line: '" ++ .ofList fault.line ++ "', error at line index: "
      ++ toString fault.index
  | encoding fault =>
    match fault.length with
    | some length =>
      "invalid utf-8 sequence of " ++ toString length ++ " bytes from index "
        ++ toString fault.start
    | none => "incomplete utf-8 byte sequence from index " ++ toString fault.start

inductive ConfigError where
  | read (path : String) (fault : FileFault)
  | write (path : String) (fault : FileFault)
  | parse (path : String)
  | render (path : String) (fault : Yaml.WriteFault)
  | notAMapping (path : String) (found : Kind)
  /-- A top-level entry looks like a line of an env file. -/
  | suspectEntry (key : String)
  /-- A document stands where an env file was expected. -/
  | structuredEnvFile (path : String)
  | envFile (path : String) (fault : EnvFault)
  | keyNotFound (key : String)
  | access (fault : AccessError)
  | grammar (fault : GrammarError)
deriving DecidableEq, Repr

namespace ConfigError

def message : ConfigError → String
  | read path fault => "Failed to read " ++ path ++ ": " ++ fault.message
  | write path fault => "Failed to write " ++ path ++ ": " ++ fault.message
  | parse path => "Failed to parse " ++ path
  | render path fault => "Failed to serialize " ++ path ++ ": " ++ fault.message
  | notAMapping path found =>
    "Top level of " ++ path ++ " must be a mapping, found " ++ found.name
  | suspectEntry key => "incorrect syntax, use ':' instead of '=' in key '" ++ key ++ "'"
  | structuredEnvFile path =>
    "file " ++ path
      ++ " appears to be a YAML file, but an .env file is required (KEY=VALUE format)"
  | envFile path fault => "Failed to parse env file " ++ path ++ ": " ++ fault.message
  | keyNotFound key => "Key not found: " ++ key
  | access fault => fault.message
  | grammar fault => fault.message

end ConfigError

end Dotpath
