import Dotpath.CommandLine
import Mathlib.Data.List.TakeWhile

/-!
# Spelling requests

How a request is written as the words of a command line: the name of its command, its operands, and
the options for what to load.

Results:
1. `ofText_eq_plain_iff`: which words are operands by themselves.
2. `ofText_word`: the word for an option is read as that option.
-/

namespace Dotpath

namespace CommandLine

/-! ## Requests as they are written -/

def Flag.name : Flag → String
  | config => "config"
  | envFile => "env-file"
  | concurrency => "concurrency"

def Command.name : Command → String
  | list => "list"
  | get => "get"
  | query => "query"
  | set => "set"

/-- An option as it is given. -/
inductive Given where
  | config (path : { path : String // path ≠ "" })
  | envFile (path : { path : String // path ≠ "" })
  /-- The concurrency flag, which can do without a value. -/
  | concurrency (value : Option String)
deriving DecidableEq

namespace Given

def flag : Given → Flag
  | config _ => .config
  | envFile _ => .envFile
  | concurrency _ => .concurrency

def value? : Given → Option String
  | config path | envFile path => some path
  | concurrency value => value

/-- What the option sets its flag to. -/
def setting (given : Given) : String :=
  given.value?.getD ""

/-- The word for the option, with its value behind an equals sign. -/
def word (given : Given) : String :=
  match given.value? with
  | some value => "--" ++ given.flag.name ++ "=" ++ value
  | none => "--" ++ given.flag.name

end Given

/-- The options of a command line. -/
structure Options where
  config : Option { path : String // path ≠ "" }
  envFile : Option { path : String // path ≠ "" }
  /-- The concurrency flag, and its value if it has one. -/
  concurrency : Option (Option String)

namespace Options

def given (options : Options) : List Given :=
  options.config.toList.map .config ++ options.envFile.toList.map .envFile ++
    options.concurrency.toList.map .concurrency

/-- What the options ask for. -/
def startup (options : Options) : Startup :=
  ⟨options.config.map Subtype.val, options.envFile.map Subtype.val,
    options.concurrency.map (·.getD "")⟩

end Options

def commandOf : Action → Command
  | .list _ => .list
  | .get _ => .get
  | .query _ => .query
  | .set _ _ => .set

def operandsOf : Action → List String
  | .list stem => stem.toList
  | .get key => [key]
  | .query path => [path]
  | .set path raw => [path, raw]

/-- The words for an action. -/
def wordsOf (action : Action) : List String :=
  (commandOf action).name :: operandsOf action

/-- The word does not begin with a hyphen, or it is nothing but a hyphen. -/
def IsOperand (word : String) : Prop :=
  word = "-" ∨ word.toList.head? ≠ some '-'

instance (word : String) : Decidable (IsOperand word) :=
  inferInstanceAs (Decidable (_ ∨ _))

/-! ## Names -/

theorem Flag.ofName?_name (flag : Flag) : ofName? flag.name = some flag := by
  cases flag <;> rfl

theorem Flag.exists_name (flag : Flag) : ∃ c cs, flag.name.toList = c :: cs ∧ '=' ∉ c :: cs := by
  cases flag <;> exact ⟨_, _, rfl, by decide⟩

theorem Command.ofName?_name (command : Command) : ofName? command.name = some command := by
  cases command <;> rfl

theorem Command.eq_name_of_ofName? {word : String} {command : Command}
    (h : ofName? word = some command) : word = command.name := by
  unfold ofName? at h
  split at h <;> cases h <;> rfl

theorem Command.isOperand_name (command : Command) : IsOperand command.name := by
  cases command <;> decide

theorem isOperand_of_isCommandName {word : String} (h : isCommandName word) : IsOperand word := by
  rw [isCommandName, Bool.or_eq_true, decide_eq_true_iff] at h
  rcases h with rfl | h
  · decide
  · obtain ⟨command, hcommand⟩ := Option.isSome_iff_exists.1 h
    rw [Command.eq_name_of_ofName? hcommand]
    exact command.isOperand_name

/-! ## Actions -/

theorem action?_operandsOf (action : Action) :
    (commandOf action).action? (operandsOf action) = some action := by
  cases action with
  | list stem => cases stem <;> rfl
  | get key => rfl
  | query path => rfl
  | set path raw => rfl

theorem length_operandsOf (action : Action) :
    (operandsOf action).length ≤ (commandOf action).arity := by
  cases action with
  | list stem => cases stem <;> simp [operandsOf, commandOf, Command.arity]
  | get key => exact Nat.le_refl 1
  | query path => exact Nat.le_refl 1
  | set path raw => exact Nat.le_refl 2

/-- Operands that are not too many are those of their action. -/
theorem eq_operandsOf {command : Command} {found : List String} {action : Action}
    (h : command.action? found = some action) (hlength : found.length ≤ command.arity) :
    commandOf action = command ∧ found = operandsOf action := by
  cases command with
  | list =>
    obtain rfl := Option.some.inj h
    match found, hlength with
    | [], _ => exact ⟨rfl, rfl⟩
    | [stem], _ => exact ⟨rfl, rfl⟩
  | get =>
    match found, h, hlength with
    | [key], h, _ =>
      obtain rfl := Option.some.inj h
      exact ⟨rfl, rfl⟩
  | query =>
    match found, h, hlength with
    | [path], h, _ =>
      obtain rfl := Option.some.inj h
      exact ⟨rfl, rfl⟩
  | set =>
    match found, h, hlength with
    | [path, raw], h, _ =>
      obtain rfl := Option.some.inj h
      exact ⟨rfl, rfl⟩

/-! ## What words look like -/

theorem ofText_eq_plain_iff {word : String} : Word.ofText word = .plain ↔ IsOperand word := by
  rw [IsOperand, ← String.toList_inj, Word.ofText]
  split
  · next h => simp [h]
  · next h => simp [h]
  · next h => simp [h]
  · next hletter =>
    refine iff_of_true rfl ?_
    cases h : word.toList with
    | nil => exact .inr nofun
    | cons c cs =>
      by_cases hc : c = '-'
      · subst hc
        cases cs with
        | nil => exact .inl rfl
        | cons c cs => exact absurd h (hletter c cs)
      · exact .inr fun hhead => hc (Option.some.inj hhead)

theorem eq_of_ofText_eq_escape {word : String} (h : Word.ofText word = .escape) : word = "--" := by
  unfold Word.ofText at h
  split at h
  · next hword => exact String.toList_inj.1 hword
  all_goals exact nomatch h

theorem ofText_of_toList {word : String} {c : Char} {cs : List Char}
    (h : word.toList = '-' :: '-' :: c :: cs) :
    Word.ofText word = .option (.ofList ((c :: cs).takeWhile (· ≠ '=')))
      (if ((c :: cs).takeWhile (· ≠ '=')).length < (c :: cs).length then
        some (.ofList ((c :: cs).drop (((c :: cs).takeWhile (· ≠ '=')).length + 1)))
      else none) := by
  rw [Word.ofText, h]
  rfl

/-- The word for an option is read as that option. Its value begins behind the first equals sign,
and can hold more of them. -/
theorem ofText_word (given : Given) :
    Word.ofText given.word = .option given.flag.name given.value? := by
  obtain ⟨c, cs, hname, heq⟩ := given.flag.exists_name
  have hall : ∀ a ∈ c :: cs, decide (a ≠ '=') = true := by
    intro a ha
    exact decide_eq_true fun h => heq (h ▸ ha)
  have hback : given.flag.name = .ofList (c :: cs) := by rw [← hname, String.ofList_toList]
  unfold Given.word
  cases given.value? with
  | none =>
    have hword : ("--" ++ given.flag.name).toList = '-' :: '-' :: c :: cs := by
      rw [String.toList_append, hname]
      rfl
    have htake : (c :: cs).takeWhile (· ≠ '=') = c :: cs := List.takeWhile_eq_self_iff.2 hall
    rw [ofText_of_toList hword, htake, if_neg (Nat.lt_irrefl _), hback]
  | some value =>
    have hword : ("--" ++ given.flag.name ++ "=" ++ value).toList
        = '-' :: '-' :: c :: (cs ++ '=' :: value.toList) := by
      simp [hname]
    have htake : (c :: (cs ++ '=' :: value.toList)).takeWhile (· ≠ '=') = c :: cs := by
      rw [← List.cons_append, List.takeWhile_append_of_pos hall]
      simp
    have hlength : (c :: cs).length < (c :: (cs ++ '=' :: value.toList)).length := by simp
    rw [ofText_of_toList hword, htake, if_pos hlength, hback]
    simp

theorem not_isOperand_escape : ¬IsOperand "--" := by
  decide

theorem not_isOperand_word (given : Given) : ¬IsOperand given.word := by
  intro h
  have hword := ofText_word given
  rw [ofText_eq_plain_iff.2 h] at hword
  exact nomatch hword

/-- No option looks like the end of the options. -/
theorem count_escape_words (given : List Given) : (given.map Given.word).count "--" = 0 := by
  rw [List.count_eq_zero]
  intro h
  obtain ⟨option, -, hword⟩ := List.mem_map.1 h
  have hlook := ofText_word option
  rw [hword] at hlook
  exact nomatch hlook

end CommandLine

end Dotpath
