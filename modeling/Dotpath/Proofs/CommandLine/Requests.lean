import Dotpath.Proofs.CommandLine.Options
import Dotpath.Proofs.FirstFault

/-!
# Reading requests back

A request that is written as a command line is read back as it is, with its options in front of the
command or behind the operands. There are two exceptions. A word that begins with a hyphen is read
as an option and not as an operand, unless two hyphens come before it. And the concurrency flag
takes the word behind it for its value if it has none, be it the command.

Results:
1. `operands_cons_cases`, `top_cons_cases`: what one word can do, behind the command and in front of
   it; `exists_taken`: what operands can be found.
2. `request_read_back`: which command lines of a request are read back as that request.
3. `request_misread`: a command line for each of the two exceptions.
-/

namespace Dotpath

namespace CommandLine

/-! ## Words that are read -/

/-- A reader that takes an option from the front takes all that are there. -/
theorem read_words {α : Type} {read : Level → List String → Except Fault α}
    (hread : ∀ level given words,
      read level (given.word :: words) = level.take given >>= fun level => read level words)
    {level after : Level} {given : List Given} (h : given.foldlM Level.take level = .ok after)
    (words : List String) : read level (given.map Given.word ++ words) = read after words := by
  induction given generalizing level with
  | nil =>
    obtain rfl := Except.ok.inj h
    rfl
  | cons first given ih =>
    rw [List.foldlM_cons] at h
    obtain ⟨middle, hfirst, hgiven⟩ := bind_eq_ok.1 h
    rw [List.map_cons, List.cons_append, hread, hfirst]
    exact ih hgiven

section Reading

variable {arity : Nat} {level after : Level} {found words rest : List String}

theorem operands_word (level : Level) (given : Given) (rest : List String) :
    operands arity false level found (given.word :: rest)
      = level.take given >>= fun level => operands arity false level found rest := by
  rw [operands]
  simp only [ofText_word, Bool.false_eq_true, if_false]
  rfl

theorem length_lt_of_append {word : String} (h : (found ++ [word] ++ words).length ≤ arity) :
    found.length < arity := by
  simp only [List.length_append, List.length_singleton] at h
  omega

theorem operands_escape :
    operands arity false level found ("--" :: rest) = operands arity true level found rest := by
  rw [operands]
  rfl

/-- Where no option is pending, words that can only be operands are taken as they come. -/
theorem operands_append (hpending : level.pending = none)
    (hwords : ∀ word ∈ words, IsOperand word) (h : (found ++ words).length ≤ arity) :
    operands arity false level found (words ++ rest)
      = operands arity false level (found ++ words) rest := by
  induction words generalizing found with
  | nil => rw [List.append_nil, List.nil_append]
  | cons word words ih =>
    have hplain := ofText_eq_plain_iff.2 (hwords word List.mem_cons_self)
    have hwords' := fun other hother => hwords other (List.mem_cons_of_mem _ hother)
    have hidle : level.awaits = false := by rw [Level.awaits, hpending, Option.any_none]
    have hsettle : level.settle = .ok level := by simp only [Level.settle, hpending]
    rw [List.append_cons] at h
    rw [List.cons_append, operands]
    simp only [hplain, hidle, hsettle, Bool.false_eq_true, if_false, if_pos (length_lt_of_append h)]
    rw [List.append_cons found word words]
    exact ih hwords' h

/-- Behind two hyphens every word is an operand. -/
theorem operands_ended (hready : level.IsReady) (h : (found ++ words).length ≤ arity) :
    operands arity true level found words = .ok (level.startup, found ++ words) := by
  induction words generalizing level found with
  | nil =>
    rw [operands, Level.settle_of_isReady hready, List.append_nil]
    rfl
  | cons word words ih =>
    have hsettled : Level.IsReady ⟨level.startup, none⟩ := .inl rfl
    rw [List.append_cons] at h
    rw [operands]
    simp only [if_true, if_pos (length_lt_of_append h), Level.settle_of_isReady hready]
    rw [List.append_cons found word words]
    exact ih hsettled h

/-- A word that cannot be an operand is no command either, and it does the same whether or not the
value of an option is awaited. -/
theorem top_cons_of_not_isOperand {word : String} (h : ¬IsOperand word) :
    top false level (word :: rest) = match Word.ofText word with
      | .escape => top true level rest
      | .option name value => level.takeOption name value >>= fun level => top false level rest
      | .letter first => level.takeLetter first >>= fun level => top false level rest
      | .plain => .error .invalidCommand := by
  have hcommand : isCommandName word = false := by
    rw [← Bool.not_eq_true]
    exact mt isOperand_of_isCommandName h
  simp only [isCommandName, Bool.or_eq_false_iff, decide_eq_false_iff_not,
    Option.isSome_eq_false_iff, Option.isNone_iff_eq_none] at hcommand
  rw [top]
  simp only [hcommand.1, hcommand.2, Bool.false_eq_true, if_false]
  cases hword : Word.ofText word with
  | escape => exact ite_self _
  | option name value => exact ite_self _
  | letter first => exact ite_self _
  | plain => exact absurd (ofText_eq_plain_iff.1 hword) h

theorem top_word (level : Level) (given : Given) (words : List String) :
    top false level (given.word :: words)
      = level.take given >>= fun level => top false level words := by
  rw [top_cons_of_not_isOperand (not_isOperand_word given), ofText_word]
  rfl

theorem top_command (command : Command) (words : List String) (hready : level.IsReady)
    (hidle : ¬level.awaits) :
    top false level (command.name :: words)
      = (commandLevel command words).map fun (inner, action) =>
          (overlay inner level.startup, action) := by
  have hhelp : command.name ≠ "help" := by cases command <;> decide
  rw [top]
  simp only [hidle, hhelp, command.ofName?_name, Bool.false_eq_true, if_false,
    Level.settle_of_isReady hready]
  cases commandLevel command words <;> rfl

end Reading

/-! ## What can be read -/

section Cases

variable {arity : Nat} {level : Level} {found words rest all : List String} {word : String}
  {startup : Startup}

/-- What one word can do among the operands. -/
theorem operands_cons_cases {result : Startup × List String}
    (h : operands arity false level found (word :: rest) = .ok result) :
    word = "--" ∧ operands arity true level found rest = .ok result ∨
    (∃ after, operands arity false after found rest = .ok result) ∨
    IsOperand word ∧ found.length < arity ∧
      ∃ after, operands arity false after (found ++ [word]) rest = .ok result := by
  rw [operands] at h
  simp only [Bool.false_eq_true, if_false] at h
  cases hword : Word.ofText word with
  | escape =>
    rw [hword] at h
    exact .inl ⟨eq_of_ofText_eq_escape hword, h⟩
  | option name value =>
    rw [hword] at h
    obtain ⟨after, -, h⟩ := bind_eq_ok.1 h
    exact .inr (.inl ⟨after, h⟩)
  | letter first =>
    rw [hword] at h
    obtain ⟨after, -, h⟩ := bind_eq_ok.1 h
    exact .inr (.inl ⟨after, h⟩)
  | plain =>
    rw [hword] at h
    dsimp only at h
    split at h
    · exact .inr (.inl ⟨_, h⟩)
    · split at h
      · next hroom =>
        obtain ⟨after, -, h⟩ := bind_eq_ok.1 h
        exact .inr (.inr ⟨ofText_eq_plain_iff.1 hword, hroom, after, h⟩)
      · exact nomatch h

theorem operands_ended_cons_cases {result : Startup × List String}
    (h : operands arity true level found (word :: rest) = .ok result) :
    found.length < arity ∧
      ∃ after, operands arity true after (found ++ [word]) rest = .ok result := by
  rw [operands] at h
  simp only [if_true] at h
  split at h
  · next hroom =>
    obtain ⟨after, -, h⟩ := bind_eq_ok.1 h
    exact ⟨hroom, after, h⟩
  · exact nomatch h

/-- What one word can do in front of the command. -/
theorem top_cons_cases {ended : Bool} {result : Startup × Action}
    (h : top ended level (word :: rest) = .ok result) :
    (∃ ended after, top ended after rest = .ok result) ∨
    ∃ command inner, commandLevel command rest = .ok (inner, result.2) := by
  cases ended with
  | true =>
    rw [top] at h
    cases h
  | false =>
    by_cases hword : IsOperand word
    · rw [top, ofText_eq_plain_iff.2 hword, if_neg Bool.false_ne_true] at h
      split at h
      · exact .inl ⟨_, _, h⟩
      · split at h
        · cases h
        · split at h
          · next command hcommand =>
            obtain ⟨⟨inner, action⟩, hlevel, h⟩ := bind_eq_ok.1 h
            obtain ⟨outer, -, h⟩ := bind_eq_ok.1 h
            obtain rfl := Except.ok.inj h
            exact .inr ⟨command, inner, hlevel⟩
          · cases h
    · rw [top_cons_of_not_isOperand hword] at h
      left
      split at h
      · exact ⟨_, _, h⟩
      · obtain ⟨after, -, h⟩ := bind_eq_ok.1 h
        exact ⟨_, after, h⟩
      · obtain ⟨after, -, h⟩ := bind_eq_ok.1 h
        exact ⟨_, after, h⟩
      · cases h

/-- The operands that can be found among words: some of those that can only be operands, and from
two hyphens on all. -/
inductive Taken : List String → List String → Prop
  | nil : Taken [] []
  | escape (words : List String) : Taken ("--" :: words) words
  | skip (word : String) {words taken : List String} : Taken words taken →
      Taken (word :: words) taken
  | operand {word : String} {words taken : List String} : IsOperand word → Taken words taken →
      Taken (word :: words) (word :: taken)

namespace Taken

variable {taken : List String}

theorem length_le (h : Taken words taken) : taken.length ≤ words.length := by
  induction h with
  | nil => exact Nat.le_refl 0
  | escape words => exact Nat.le_succ _
  | skip word _ ih => exact Nat.le_succ_of_le ih
  | operand _ _ ih => exact Nat.succ_le_succ ih

/-- An operand that looks like an option costs two hyphens, which are not among the operands. -/
theorem isOperand_or_count_lt (h : Taken words taken) :
    (∀ word ∈ taken, IsOperand word) ∨ taken.count "--" < words.count "--" := by
  induction h with
  | nil => exact .inl nofun
  | escape words => exact .inr (by simp)
  | skip word _ ih => exact ih.imp_right fun hcount => hcount.trans_le List.count_le_count_cons
  | @operand word words taken hword _ ih =>
    have hne : word ≠ "--" := by
      rintro rfl
      exact not_isOperand_escape hword
    rw [List.forall_mem_cons, List.count_cons_of_ne hne, List.count_cons_of_ne hne]
    exact ih.imp_left fun htaken => ⟨hword, htaken⟩

end Taken

theorem operands_ended_eq_ok (h : operands arity true level found words = .ok (startup, all))
    (hfound : found.length ≤ arity) : all = found ++ words ∧ all.length ≤ arity := by
  induction words generalizing level found with
  | nil =>
    rw [operands] at h
    obtain ⟨after, -, h⟩ := map_eq_ok.1 h
    obtain rfl := congrArg Prod.snd h
    exact ⟨(List.append_nil _).symm, hfound⟩
  | cons word words ih =>
    obtain ⟨hroom, after, h⟩ := operands_ended_cons_cases h
    have hfound' : (found ++ [word]).length ≤ arity := List.length_append.trans_le hroom
    rw [List.append_cons]
    exact ih h hfound'

theorem exists_taken (h : operands arity false level found words = .ok (startup, all))
    (hfound : found.length ≤ arity) :
    ∃ taken, all = found ++ taken ∧ all.length ≤ arity ∧ Taken words taken := by
  induction words generalizing level found with
  | nil =>
    rw [operands] at h
    obtain ⟨after, -, h⟩ := map_eq_ok.1 h
    obtain rfl := congrArg Prod.snd h
    exact ⟨[], (List.append_nil _).symm, hfound, .nil⟩
  | cons word words ih =>
    rcases operands_cons_cases h with ⟨rfl, h⟩ | ⟨after, h⟩ | ⟨hword, hroom, after, h⟩
    · obtain ⟨rfl, hlength⟩ := operands_ended_eq_ok h hfound
      exact ⟨words, rfl, hlength, .escape words⟩
    · obtain ⟨taken, rfl, hlength, htaken⟩ := ih h hfound
      exact ⟨taken, rfl, hlength, .skip word htaken⟩
    · have hfound' : (found ++ [word]).length ≤ arity := List.length_append.trans_le hroom
      obtain ⟨taken, rfl, hlength, htaken⟩ := ih h hfound'
      exact ⟨word :: taken, (List.append_cons ..).symm, hlength, .operand hword htaken⟩

theorem taken_operands (h : operands arity false .start [] words = .ok (startup, all)) :
    all.length ≤ arity ∧ Taken words all := by
  obtain ⟨taken, hall, hlength, htaken⟩ := exists_taken h (Nat.zero_le _)
  obtain rfl : all = taken := hall
  exact ⟨hlength, htaken⟩

end Cases

/-! ## Commands with their operands -/

section Commands

variable {level : Level} {words : List String} {startup : Startup} {action : Action}

theorem commandLevel_eq_ok_iff {command : Command} :
    commandLevel command words = .ok (startup, action) ↔
      commandOf action = command ∧
        operands command.arity false .start [] words = .ok (startup, operandsOf action) := by
  rw [commandLevel]
  constructor
  · intro h
    obtain ⟨⟨inner, found⟩, hfound, h⟩ := bind_eq_ok.1 h
    dsimp only at h
    split at h
    · next action' haction =>
      obtain ⟨rfl, rfl⟩ := Prod.mk.inj (Except.ok.inj h)
      obtain ⟨hcommand, rfl⟩ := eq_operandsOf haction (taken_operands hfound).1
      exact ⟨hcommand, hfound⟩
    · exact nomatch h
  · rintro ⟨rfl, h⟩
    rw [h]
    simp only [bind, Except.bind, action?_operandsOf]
    rfl

theorem overlay_start (startup : Startup) : overlay startup Level.start.startup = startup := by
  simp [overlay, Level.start, Level.startup]

theorem top_eq_ok_iff (hready : level.IsReady) (hidle : ¬level.awaits) :
    top false level ((commandOf action).name :: words) = .ok (startup, action) ↔
      ∃ inner, operands (commandOf action).arity false .start [] words
          = .ok (inner, operandsOf action) ∧ startup = overlay inner level.startup := by
  rw [top_command _ _ hready hidle, map_eq_ok]
  constructor
  · rintro ⟨⟨inner, action'⟩, hlevel, hresult⟩
    obtain ⟨rfl, rfl⟩ := Prod.mk.inj hresult
    exact ⟨inner, (commandLevel_eq_ok_iff.1 hlevel).2, rfl⟩
  · rintro ⟨inner, hoperands, rfl⟩
    exact ⟨(inner, action), commandLevel_eq_ok_iff.2 ⟨rfl, hoperands⟩, rfl⟩

theorem parse_eq_ok_iff :
    parse ((commandOf action).name :: words) = .ok (startup, action) ↔
      operands (commandOf action).arity false .start [] words
        = .ok (startup, operandsOf action) := by
  rw [parse, top_eq_ok_iff Level.isReady_start nofun]
  simp only [overlay_start]
  exact ⟨fun ⟨_, h, hsame⟩ => hsame ▸ h, fun h => ⟨_, h, rfl⟩⟩

/-- An action other than the one without a command is made of fewer words than are read. -/
theorem length_operandsOf_lt {ended : Bool} (h : top ended level words = .ok (startup, action)) :
    action = .list none ∨ (operandsOf action).length < words.length := by
  induction words generalizing ended level with
  | nil =>
    rw [top] at h
    obtain ⟨after, -, h⟩ := map_eq_ok.1 h
    exact .inl (congrArg Prod.snd h)
  | cons word words ih =>
    rcases top_cons_cases h with ⟨ended, after, h⟩ | ⟨command, inner, h⟩
    · exact (ih h).imp_right fun hlength => hlength.trans (Nat.lt_succ_self _)
    · have htaken := (taken_operands (commandLevel_eq_ok_iff.1 h).2).2
      exact .inr (Nat.lt_succ_of_le htaken.length_le)

/-- The concurrency flag takes the command for its value. What is left are too few words for the
action, unless there is nothing left and all is listed; but then the flag has a value. -/
theorem top_ne_of_awaits (hready : level.IsReady) (hawaits : level.awaits) (action : Action) :
    top false level (wordsOf action) ≠ .ok (level.startup, action) := by
  obtain ⟨settled, pending⟩ := level
  rcases hready with hpending | ⟨hpending, hfree⟩
  · obtain rfl : pending = none := hpending
    exact nomatch hawaits
  obtain rfl : pending = some (.concurrency, none) := hpending
  have hplain := ofText_eq_plain_iff.2 (commandOf action).isOperand_name
  intro h
  rw [wordsOf, top] at h
  simp only [hawaits, hplain, Bool.false_eq_true, if_false, if_true] at h
  rcases length_operandsOf_lt h with rfl | hlength
  · have hassign := (Given.concurrency (some "list")).assign_eq hfree
    have hsettle : Level.settle ⟨settled, some (.concurrency, some "list")⟩
        = .ok ⟨withSetting settled "list" .concurrency, none⟩ :=
      congrArg (Except.map (Level.mk · none)) hassign
    obtain ⟨after, hafter, hresult⟩ := map_eq_ok.1 h
    obtain rfl := Except.ok.inj (hsettle.symm.trans hafter)
    have hflag := congrArg (fun result => result.1.concurrency) hresult
    exact absurd (Option.some.inj hflag) (by decide)
  · exact Nat.lt_irrefl _ hlength

/-- Options behind the operands do not make operands of words that look like options. -/
theorem isOperand_of_operands {arity : Nat} (given : List Given) {inner : Startup}
    (h : operands arity false .start [] (words ++ given.map Given.word) = .ok (inner, words)) :
    ∀ word ∈ words, IsOperand word := by
  refine (taken_operands h).2.isOperand_or_count_lt.resolve_right fun hcount => ?_
  rw [List.count_append, count_escape_words] at hcount
  exact Nat.lt_irrefl _ hcount

theorem operands_operandsOf {given : List Given}
    (h : given.foldlM Level.take .start = .ok level) (hready : level.IsReady)
    (hwords : ∀ word ∈ operandsOf action, IsOperand word) :
    operands (commandOf action).arity false .start [] (operandsOf action ++ given.map Given.word)
      = .ok (level.startup, operandsOf action) := by
  have hend : operands (commandOf action).arity false level (operandsOf action) []
      = .ok (level.startup, operandsOf action) := by
    rw [operands, Level.settle_of_isReady hready]
    rfl
  rw [operands_append rfl hwords (length_operandsOf action), List.nil_append,
    ← List.append_nil (given.map Given.word), read_words operands_word h, hend]

end Commands

end CommandLine

open CommandLine

/-- Which command lines of a request are read back as that request, for all its options in any
order. With the options in front of the command it is read back if and only if its operands do not
begin with a hyphen, but for a hyphen alone, and the command does not stand behind a concurrency
flag without a value. With the options behind the operands the first of these is enough. With two
hyphens in front of the operands every request is read back, unless the flag stands in front of the
command. -/
theorem request_read_back (options : Options) {given : List Given} (h : given.Perm options.given)
    (action : Action) :
    (parse (given.map Given.word ++ wordsOf action) = .ok (options.startup, action) ↔
      given.getLast? ≠ some (.concurrency none) ∧ ∀ word ∈ operandsOf action, IsOperand word) ∧
    (parse (wordsOf action ++ given.map Given.word) = .ok (options.startup, action) ↔
      ∀ word ∈ operandsOf action, IsOperand word) ∧
    (given.getLast? ≠ some (.concurrency none) →
      parse (given.map Given.word ++ (commandOf action).name :: "--" :: operandsOf action)
        = .ok (options.startup, action)) ∧
    parse ((commandOf action).name :: given.map Given.word ++ "--" :: operandsOf action)
      = .ok (options.startup, action) := by
  obtain ⟨after, hafter, hready, hstartup, hlast⟩ := options.foldlM_take h
  rw [← hstartup]
  refine ⟨⟨fun hparse => ?_, fun ⟨hbare, hwords⟩ => ?_⟩, ⟨fun hparse => ?_, fun hwords => ?_⟩,
    fun hbare => ?_, ?_⟩
  · rw [parse, read_words top_word hafter] at hparse
    have hidle : ¬after.awaits := fun hawaits => top_ne_of_awaits hready hawaits action hparse
    obtain ⟨inner, hoperands, -⟩ := (top_eq_ok_iff hready hidle).1 hparse
    have hwords := isOperand_of_operands [] (by rwa [List.map_nil, List.append_nil])
    exact ⟨mt hlast.2 hidle, hwords⟩
  · have hoperands := operands_operandsOf (List.foldlM_nil ..) Level.isReady_start hwords
    rw [List.map_nil, List.append_nil] at hoperands
    rw [parse, read_words top_word hafter, wordsOf, top_eq_ok_iff hready (mt hlast.1 hbare)]
    exact ⟨_, hoperands, rfl⟩
  · exact isOperand_of_operands given (parse_eq_ok_iff.1 hparse)
  · exact parse_eq_ok_iff.2 (operands_operandsOf hafter hready hwords)
  · have hlength := length_operandsOf action
    rw [parse, read_words top_word hafter, top_eq_ok_iff hready (mt hlast.1 hbare)]
    exact ⟨_, operands_escape.trans (operands_ended Level.isReady_start hlength), rfl⟩
  · rw [List.cons_append, parse_eq_ok_iff, read_words operands_word hafter, operands_escape]
    exact operands_ended hready (length_operandsOf action)

/-- A path with an equals sign, and the concurrency flag without a value. -/
def debtOptions : Options :=
  ⟨some ⟨"a=b.yaml", by decide⟩, none, some none⟩

def debtGiven : List Given :=
  [.concurrency none, .config ⟨"a=b.yaml", by decide⟩]

theorem request_read_back_debt :
    debtGiven.Perm debtOptions.given ∧
    parse ["--concurrency", "--config=a=b.yaml", "set", "debt", "-"]
      = .ok (⟨some "a=b.yaml", none, some ""⟩, .set "debt" "-") ∧
    parse ["set", "debt", "-", "--concurrency", "--config=a=b.yaml"]
      = .ok (⟨some "a=b.yaml", none, some ""⟩, .set "debt" "-") ∧
    parse ["--concurrency", "--config=a=b.yaml", "set", "--", "debt", "-5"]
      = .ok (⟨some "a=b.yaml", none, some ""⟩, .set "debt" "-5") ∧
    parse ["set", "--concurrency", "--config=a=b.yaml", "--", "debt", "-5"]
      = .ok (⟨some "a=b.yaml", none, some ""⟩, .set "debt" "-5") := by
  have hperm : debtGiven.Perm debtOptions.given := .swap _ _ _
  have hlast : debtGiven.getLast? ≠ some (.concurrency none) := by decide
  have hwords : ∀ word ∈ operandsOf (.set "debt" "-"), IsOperand word := by decide
  obtain ⟨hfront, hbehind, -⟩ := request_read_back debtOptions hperm (.set "debt" "-")
  obtain ⟨-, -, hescaped, hinner⟩ := request_read_back debtOptions hperm (.set "debt" "-5")
  exact ⟨hperm, hfront.2 ⟨hlast, hwords⟩, hbehind.2 hwords, hescaped hlast, hinner⟩

/-- The concurrency flag without a value takes the command for its value, and a negative number is
read as an option. -/
theorem request_misread :
    parse ((⟨none, none, some none⟩ : Options).given.map Given.word ++ wordsOf (.get "port"))
      = .error .invalidCommand ∧
    parse (wordsOf (.set "port" "-5")) = .error .unknownArgument :=
  ⟨rfl, rfl⟩

end Dotpath
