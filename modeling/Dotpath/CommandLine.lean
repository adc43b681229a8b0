import Dotpath.Startup

/-!
# Command lines

A command line names what to load by options, and what to do by a command with its operands. Options
are accepted before the command and among its operands; a value given after the command wins. Two
hyphens end the options.
-/

namespace Dotpath.CommandLine

/-- Why a command line is not accepted. -/
inductive Fault where
  | invalidCommand
  | invalidValue
  | unknownArgument
  | missingOperand
  | repeatedOption
  | unneededValue
  /-- Help is asked for. -/
  | help
deriving DecidableEq, Repr

inductive Flag where
  | config
  | envFile
  | concurrency
deriving DecidableEq, Repr

inductive Command where
  | list
  | get
  | query
  | set
deriving DecidableEq, Repr

/-- The option of a name. -/
def Flag.ofName? (name : String) : Option Flag :=
  match name with
  | "config" => some .config
  | "env-file" => some .envFile
  | "concurrency" => some .concurrency
  | _ => none

namespace Command

/-- The command of a name. -/
def ofName? (name : String) : Option Command :=
  match name with
  | "list" => some .list
  | "get" => some .get
  | "query" => some .query
  | "set" => some .set
  | _ => none

/-- The greatest number of operands. -/
def arity : Command → Nat
  | set => 2
  | _ => 1

/-- The action on operands; `none` if one is missing. -/
def action? : Command → List String → Option Action
  | list, operands => some (.list operands.head?)
  | get, key :: _ => some (.get key)
  | query, path :: _ => some (.query path)
  | set, path :: value :: _ => some (.set path value)
  | _, _ => none

end Command

/-- A word that can only be a command. -/
def isCommandName (word : String) : Bool :=
  word = "help" || (Command.ofName? word).isSome

/-- What a word looks like. -/
inductive Word where
  /-- Two hyphens. -/
  | escape
  /-- A name after two hyphens, with the value after an equals sign. -/
  | option (name : String) (value : Option String)
  /-- Letters after one hyphen, of which the first one decides. -/
  | letter (first : Char)
  | plain
deriving DecidableEq, Repr

def Word.ofText (text : String) : Word :=
  match text.toList with
  | ['-', '-'] => .escape
  | '-' :: '-' :: cs =>
    let name := cs.takeWhile (· ≠ '=')
    .option (.ofList name)
      (if name.length < cs.length then some (.ofList (cs.drop (name.length + 1))) else none)
  | '-' :: c :: _ => .letter c
  | _ => .plain

/-- The options of one level, before the command or after it. -/
structure Level where
  settled : Startup
  /-- The last option, and its value if it has come; it is settled when something else comes. -/
  pending : Option (Flag × Option String)

namespace Level

def start : Level := ⟨⟨none, none, none⟩, none⟩

/-- The next word is the value of an option. -/
def awaits (level : Level) : Bool :=
  level.pending.any (·.2.isNone)

end Level

/-- Paths have a value that is not empty; the concurrency flag has the empty value if none is
given. -/
def checkValue (flag : Flag) (value : Option String) : Except Fault String :=
  match flag, value with
  | .concurrency, value => .ok (value.getD "")
  | _, some value => if value = "" then .error .invalidValue else .ok value
  | _, none => .error .invalidValue

def settingOf (startup : Startup) : Flag → Option String
  | .config => startup.config
  | .envFile => startup.envFile
  | .concurrency => startup.concurrency

def withSetting (startup : Startup) (value : String) : Flag → Startup
  | .config => { startup with config := some value }
  | .envFile => { startup with envFile := some value }
  | .concurrency => { startup with concurrency := some value }

/-- Gives an option its value, once on each level. A missing value is reported before a repeated
option, and an empty one after it. -/
def assign (startup : Startup) (flag : Flag) (value : Option String) : Except Fault Startup :=
  if value.isNone && flag ≠ .concurrency then .error .invalidValue
  else if (settingOf startup flag).isSome then .error .repeatedOption
  else (checkValue flag value).map (withSetting startup · flag)

namespace Level

/-- Gives the pending option its value. -/
def settle (level : Level) : Except Fault Level :=
  match level.pending with
  | none => .ok level
  | some (flag, value) => (assign level.settled flag value).map (⟨·, none⟩)

/-- Takes an option by its name. -/
def takeOption (level : Level) (name : String) (value : Option String) : Except Fault Level :=
  match Flag.ofName? name with
  | some flag => do
    let level ← level.settle
    match value with
    | some value => pure ⟨← assign level.settled flag (some value), none⟩
    | none => pure { level with pending := some (flag, none) }
  | none =>
    if name ≠ "help" then .error .unknownArgument
    else if value.isSome then .error .unneededValue
    else do
      let _ ← level.settle
      .error .help

/-- Takes letters, of which only the one for help is known. -/
def takeLetter (level : Level) (letter : Char) : Except Fault Level :=
  if letter = 'h' then do
    let _ ← level.settle
    .error .help
  else .error .unknownArgument

/-- Takes the value that is awaited. -/
def takeValue (level : Level) (value : String) : Level :=
  { level with pending := level.pending.map fun (flag, _) => (flag, some value) }

end Level

/-- Reads operands up to `arity`, and options among them unless they have ended. -/
def operands (arity : Nat) (ended : Bool) (level : Level) (found : List String) :
    List String → Except Fault (Startup × List String)
  | [] => level.settle.map fun level => (level.settled, found)
  | word :: rest =>
    let operand : Except Fault (Startup × List String) :=
      if found.length < arity then do
        let level ← level.settle
        operands arity ended level (found ++ [word]) rest
      else .error .unknownArgument
    if ended then operand
    else match Word.ofText word with
      | .escape => operands arity true level found rest
      | .option name value => do operands arity ended (← level.takeOption name value) found rest
      | .letter letter => do operands arity ended (← level.takeLetter letter) found rest
      | .plain =>
        if level.awaits then operands arity ended (level.takeValue word) found rest else operand

/-- Reads what comes after a command. -/
def commandLevel (command : Command) (words : List String) : Except Fault (Startup × Action) := do
  let (startup, operands) ← operands command.arity false .start [] words
  match command.action? operands with
  | some action => pure (startup, action)
  | none => .error .missingOperand

/-- Help can be asked for a command by name. -/
def helpOn (words : List String) : Fault :=
  match words with
  | [] => .help
  | [word] => if isCommandName word then .help else .invalidCommand
  | _ => .invalidCommand

/-- Settings of the inner level, and those of the outer one where it has none. -/
def overlay (inner outer : Startup) : Startup :=
  ⟨inner.config.or outer.config, inner.envFile.or outer.envFile,
    inner.concurrency.or outer.concurrency⟩

/-- Reads options up to the command, and from there on what comes after it. -/
def top (ended : Bool) (level : Level) : List String → Except Fault (Startup × Action)
  | [] => level.settle.map fun level => (level.settled, .list none)
  | word :: rest =>
    if ended then .error (if isCommandName word then .unknownArgument else .invalidCommand)
    else if level.awaits then
      match Word.ofText word with
      | .escape => top true level rest
      | .option name value => do top ended (← level.takeOption name value) rest
      | .letter letter => do top ended (← level.takeLetter letter) rest
      | .plain => top ended (level.takeValue word) rest
    else if word = "help" then .error (helpOn rest)
    else match Command.ofName? word with
      | some command => do
        let (inner, action) ← commandLevel command rest
        let level ← level.settle
        pure (overlay inner level.settled, action)
      | none =>
        match Word.ofText word with
        | .escape => top true level rest
        | .option name value => do top ended (← level.takeOption name value) rest
        | .letter letter => do top ended (← level.takeLetter letter) rest
        | .plain => .error .invalidCommand

/-- What a command line asks for: what to load and the action. Without a command, all is listed. -/
def parse (words : List String) : Except Fault (Startup × Action) :=
  top false .start words

end Dotpath.CommandLine
