import Dotpath.Path.Grammar
import Dotpath.Proofs.FirstFault
import Mathlib.Data.List.Induction
import Mathlib.Data.Nat.Digits.Defs

/-!
# What the path parser accepts

The grammar of paths as relations between texts and steps, said without the parser, and the fault
that each text outside the grammar is blamed for. The brackets of a part and the parts of a text
are both read from left to right, up to the first faulty one.

Results:
1. `parseIndex_eq_ok`, `parseIndex_eq_error`: what the contents of one bracket are read as.
2. `readPart_eq_ok`, `readPart_eq_error`: what one part is read as.
3. `parse_eq_ok`, `parse_eq_error`: what a text is read as.
4. `parse_exact`: the parser accepts exactly the grammar and blames the first fault.
-/

namespace Dotpath

/-! ## The grammar -/

namespace Path

/-- The number that decimal digits spell, most significant first. -/
def decimal (digits : List Char) : Nat :=
  Nat.ofDigits 10 (digits.reverse.map fun c => c.toNat - '0'.toNat)

/-- Contents between brackets. -/
def bracketed (contents : List Char) : List Char :=
  '[' :: contents ++ [']']

/-- A text that is nothing but closed brackets with these contents, which may hold `[`. -/
structure IsBrackets (text : List Char) (contents : List (List Char)) : Prop where
  text_eq : text = contents.flatMap bracketed
  closed : ∀ inner ∈ contents, ']' ∉ inner

/-- A part that is a name without `[` and then closed brackets up to its end. -/
structure IsPart (part name : List Char) (contents : List (List Char)) : Prop where
  name_open : '[' ∉ name
  brackets : ∃ rest, part = name ++ rest ∧ IsBrackets rest contents

/-- The contents of a bracket are digits, leading zeros allowed, for a position within the limit. -/
structure IsIndex (contents : List Char) (step : Accessor) : Prop where
  nonempty : contents ≠ []
  digits : ∀ c ∈ contents, c.isDigit = true
  within : decimal contents ≤ maxIndex
  step_eq : step = .index (decimal contents)

/-- The step that a name stands for, none if it is empty. -/
def nameSteps (name : List Char) : Path :=
  if name = [] then [] else [.field (.ofList name)]

/-- A part spells the step of its name and then one step for each of its brackets. -/
structure IsSteps (part : List Char) (steps : Path) : Prop where
  nonempty : part ≠ []
  spelled : ∃ name contents indices, IsPart part name contents ∧
    List.Forall₂ IsIndex contents indices ∧ steps = nameSteps name ++ indices

/-- The stretches of a text between its dots. -/
structure IsParts (text : String) (parts : List (List Char)) : Prop where
  nonempty : parts ≠ []
  joined : Text.joinWith '.' parts = text.toList
  dotless : ∀ part ∈ parts, '.' ∉ part

/-- A text spells the steps of its parts, one after the other. -/
structure Spells (text : String) (path : Path) : Prop where
  nonempty : text ≠ ""
  spelled : ∃ parts steps, IsParts text parts ∧ List.Forall₂ IsSteps parts steps ∧
    path = steps.flatten

/-! ## Faults -/

/-- What is wrong with the contents of a bracket in `part`. -/
inductive IndexFault (part : List Char) : List Char → GrammarError → Prop
  | empty : IndexFault part [] (.emptyIndex (.ofList part))
  | notDigits {contents : List Char} {c : Char} : c ∈ contents → c.isDigit = false →
      IndexFault part contents (.invalidIndex (.ofList part) (.ofList contents))
  | overflow {contents : List Char} : (∀ c ∈ contents, c.isDigit = true) →
      2 ^ 64 ≤ decimal contents →
      IndexFault part contents (.invalidIndex (.ofList part) (.ofList contents))
  | tooLarge {contents : List Char} : (∀ c ∈ contents, c.isDigit = true) →
      decimal contents < 2 ^ 64 → maxIndex < decimal contents →
      IndexFault part contents (.indexTooLarge (.ofList part) (decimal contents))

/-- What is wrong with a part of the text `whole`. -/
inductive PartFault (whole : String) : List Char → GrammarError → Prop
  | empty : PartFault whole [] (.emptySegment whole)
  | malformed {part : List Char} : (∀ name contents, ¬IsPart part name contents) →
      PartFault whole part (.malformedPart (.ofList part))
  | index {part name : List Char} {contents : List (List Char)} {fault : GrammarError} :
      IsPart part name contents →
      FirstFault (fun inner => ∃ step, IsIndex inner step) (IndexFault part) contents fault →
      PartFault whole part fault

/-- What is wrong with a text: it is empty, or its leftmost faulty part has this fault. -/
inductive TextFault (text : String) : GrammarError → Prop
  | empty : text = "" → TextFault text .emptyPath
  | part {parts : List (List Char)} {fault : GrammarError} : text ≠ "" → IsParts text parts →
      FirstFault (fun part => ∃ steps, IsSteps part steps) (PartFault text) parts fault →
      TextFault text fault

/-! ## One bracket -/

theorem digitsValue_eq_decimal (digits : List Char) : digitsValue digits = decimal digits := by
  have hsnoc (ds : List Char) (d : Char) :
      decimal (ds ++ [d]) = 10 * decimal ds + (d.toNat - '0'.toNat) := by
    simp [decimal, Nat.ofDigits_cons, Nat.add_comm]
  induction digits using List.reverseRecOn with
  | nil => rfl
  | append_singleton ds d ih => rw [hsnoc, ← ih, digitsValue, List.foldl_append]; rfl

theorem holds_word (value : Nat) : Word.holds false 64 value = true ↔ value < 2 ^ 64 := by
  simp [Word.holds]

theorem ne_nil_of_decimal_pos {contents : List Char} (h : 0 < decimal contents) :
    contents ≠ [] := by
  rintro rfl
  exact absurd h (by decide)

/-- Contents that are not digits and digits beyond 64 bits are refused in the same way. -/
theorem refused_iff (contents : List Char) :
    (!contents.all Char.isDigit || !Word.holds false 64 (decimal contents)) = true
      ↔ ¬(∀ c ∈ contents, c.isDigit = true) ∨ 2 ^ 64 ≤ decimal contents := by
  rw [Bool.or_eq_true, Bool.not_eq_true', Bool.not_eq_true', ← Bool.not_eq_true,
    ← Bool.not_eq_true, holds_word, List.all_eq_true, Nat.not_lt]

theorem parseIndex_eq_ok {part contents : List Char} {step : Accessor} :
    parseIndex part contents = .ok step ↔ IsIndex contents step := by
  rw [parseIndex, digitsValue_eq_decimal]
  constructor
  · intro h
    split at h
    · exact nomatch h
    · next hne =>
      split at h
      · exact nomatch h
      · next hvalid =>
        rw [refused_iff, not_or, not_not] at hvalid
        split at h
        · exact nomatch h
        · next hle =>
          rw [List.isEmpty_iff] at hne
          exact ⟨hne, hvalid.1, Nat.not_lt.1 hle, (Except.ok.inj h).symm⟩
  · rintro ⟨hne, hdigits, hle, rfl⟩
    have hfits : decimal contents < 2 ^ 64 := Nat.lt_of_le_of_lt hle (by decide)
    have hvalid := mt (refused_iff contents).1 (not_or.2 ⟨not_not.2 hdigits, Nat.not_le.2 hfits⟩)
    rw [if_neg (mt List.isEmpty_iff.1 hne), if_neg hvalid, if_neg (Nat.not_lt.2 hle)]

theorem parseIndex_eq_error {part contents : List Char} {fault : GrammarError} :
    parseIndex part contents = .error fault ↔ IndexFault part contents fault := by
  rw [parseIndex, digitsValue_eq_decimal]
  constructor
  · intro h
    split at h
    · next hnil =>
      obtain rfl := List.isEmpty_iff.1 hnil
      obtain rfl := Except.error.inj h
      exact .empty
    · split at h
      · next hrefused =>
        obtain rfl := Except.error.inj h
        by_cases hdigits : ∀ c ∈ contents, c.isDigit = true
        · have hlarge := ((refused_iff contents).1 hrefused).resolve_left (not_not.2 hdigits)
          exact .overflow hdigits hlarge
        · obtain ⟨c, hc, hdigit⟩ : ∃ c ∈ contents, c.isDigit = false := by simpa using hdigits
          exact .notDigits hc hdigit
      · next hvalid =>
        rw [refused_iff, not_or, not_not, Nat.not_le] at hvalid
        split at h
        · next hlt =>
          obtain rfl := Except.error.inj h
          exact .tooLarge hvalid.1 hvalid.2 hlt
        · exact nomatch h
  · rintro (_ | ⟨hc, hdigit⟩ | ⟨hdigits, hoverflow⟩ | ⟨hdigits, hfits, hlt⟩)
    · rfl
    · have hdigits : ¬∀ c ∈ contents, c.isDigit = true := fun h => by simp [h _ hc] at hdigit
      rw [if_neg (mt List.isEmpty_iff.1 (List.ne_nil_of_mem hc)),
        if_pos ((refused_iff contents).2 (.inl hdigits))]
    · have hne := ne_nil_of_decimal_pos (Nat.lt_of_lt_of_le (by decide) hoverflow)
      rw [if_neg (mt List.isEmpty_iff.1 hne), if_pos ((refused_iff contents).2 (.inr hoverflow))]
    · have hne := ne_nil_of_decimal_pos (Nat.lt_of_le_of_lt (Nat.zero_le _) hlt)
      have hvalid := mt (refused_iff contents).1 (not_or.2 ⟨not_not.2 hdigits, Nat.not_le.2 hfits⟩)
      rw [if_neg (mt List.isEmpty_iff.1 hne), if_neg hvalid, if_pos hlt]

/-! ## Brackets up to the end of a part -/

theorem brackets_close (body inner tail : List Char) (h : ']' ∉ inner) :
    brackets (some body) (inner ++ ']' :: tail)
      = (brackets none tail).map ((body.reverse ++ inner) :: ·) := by
  induction inner generalizing body with
  | nil => simp [brackets]
  | cons c inner ih =>
    rw [List.mem_cons, not_or] at h
    rw [List.cons_append, brackets, if_neg (Ne.symm h.1), ih _ h.2]
    simp

theorem brackets_of_isBrackets {text : List Char} {contents : List (List Char)}
    (h : IsBrackets text contents) : brackets none text = some contents := by
  obtain ⟨rfl, hclosed⟩ := h
  induction contents with
  | nil => rfl
  | cons inner contents ih =>
    obtain ⟨hinner, hrest⟩ := List.forall_mem_cons.1 hclosed
    have hopen : List.flatMap bracketed (inner :: contents)
        = '[' :: (inner ++ ']' :: contents.flatMap bracketed) := by
      simp [bracketed]
    rw [hopen, brackets, if_pos rfl, brackets_close [] inner _ hinner, ih hrest]
    rfl

/-- Between brackets the text is made of brackets; inside one it goes on with the rest of the
contents, their end, and more brackets. -/
theorem isBrackets_of_brackets {body : Option (List Char)} {text : List Char}
    {contents : List (List Char)} (h : brackets body text = some contents) :
    match body with
    | none => IsBrackets text contents
    | some held => ∃ inner tail more, text = inner ++ ']' :: tail ∧ ']' ∉ inner ∧
        contents = (held.reverse ++ inner) :: more ∧ IsBrackets tail more := by
  -- One induction for both states: a bracket that opens leads to the inside, and its end back out.
  induction text generalizing body contents with
  | nil =>
    cases body with
    | none =>
      obtain rfl : [] = contents := by simpa [brackets] using h
      exact ⟨rfl, by simp⟩
    | some held => simp [brackets] at h
  | cons c cs ih =>
    cases body with
    | none =>
      rw [brackets] at h
      split at h
      · next hc =>
        subst hc
        obtain ⟨inner, tail, more, rfl, hinner, rfl, hmore⟩ := ih h
        refine ⟨by simp [bracketed, hmore.text_eq], ?_⟩
        exact List.forall_mem_cons.2 ⟨hinner, hmore.closed⟩
      · exact nomatch h
    | some held =>
      rw [brackets] at h
      split at h
      · next hc =>
        subst hc
        obtain ⟨more, hmore, rfl⟩ := Option.map_eq_some_iff.1 h
        exact ⟨[], cs, more, rfl, by simp, by simp, ih hmore⟩
      · next hc =>
        obtain ⟨inner, tail, more, rfl, hinner, rfl, hmore⟩ := ih h
        refine ⟨c :: inner, tail, more, rfl, ?_, by simp, hmore⟩
        exact fun hmem => (List.mem_cons.1 hmem).elim (fun heq => hc heq.symm) hinner

theorem brackets_eq_some {text : List Char} {contents : List (List Char)} :
    brackets none text = some contents ↔ IsBrackets text contents :=
  ⟨fun h => isBrackets_of_brackets h, brackets_of_isBrackets⟩

/-! ## One part -/

/-- Brackets are empty or begin with the character that no name holds. -/
theorem takeWhile_of_isBrackets {text : List Char} {contents : List (List Char)}
    (h : IsBrackets text contents) : text.takeWhile (· ≠ '[') = [] := by
  obtain ⟨rfl, -⟩ := h
  cases contents with
  | nil => rfl
  | cons inner contents => simp [bracketed]

/-- There is one way to see a part as a name and brackets. -/
theorem isPart_iff {part name : List Char} {contents : List (List Char)} :
    IsPart part name contents
      ↔ name = part.takeWhile (· ≠ '[') ∧
        brackets none (part.dropWhile (· ≠ '[')) = some contents := by
  constructor
  · rintro ⟨hopen, rest, rfl, hbrackets⟩
    have hname : ∀ c ∈ name, decide (c ≠ '[') = true := by
      intro c hc
      rw [decide_eq_true_eq]
      rintro rfl
      exact hopen hc
    have hstop := takeWhile_of_isBrackets hbrackets
    have hrest : rest.dropWhile (· ≠ '[') = rest := by
      have happend := rest.takeWhile_append_dropWhile (p := (· ≠ '['))
      rwa [hstop] at happend
    rw [List.takeWhile_append_of_pos hname, List.dropWhile_append_of_pos hname, hstop, hrest,
      List.append_nil]
    exact ⟨rfl, brackets_eq_some.2 hbrackets⟩
  · rintro ⟨rfl, hbrackets⟩
    refine ⟨fun hmem => ?_, _, List.takeWhile_append_dropWhile.symm, brackets_eq_some.1 hbrackets⟩
    have hall := List.all_eq_true.1 (List.all_takeWhile (p := (· ≠ '[')) (l := part))
    exact absurd (hall '[' hmem) (by decide)

theorem parsePart_of_isPart {part name : List Char} {contents : List (List Char)}
    (h : IsPart part name contents) :
    parsePart part = (contents.mapM (parseIndex part)).map (nameSteps name ++ ·) := by
  obtain ⟨rfl, hbrackets⟩ := isPart_iff.1 h
  rw [parsePart, hbrackets]
  dsimp only
  cases contents.mapM (parseIndex part) with
  | error fault => rfl
  | ok indices =>
    unfold nameSteps
    cases part.takeWhile (· ≠ '[') <;> rfl

theorem parsePart_of_not_isPart {part : List Char}
    (h : ∀ name contents, ¬IsPart part name contents) :
    parsePart part = .error (.malformedPart (.ofList part)) := by
  rw [parsePart]
  cases hbrackets : brackets none (part.dropWhile (· ≠ '[')) with
  | none => rfl
  | some contents => exact absurd (isPart_iff.2 ⟨rfl, hbrackets⟩) (h _ contents)

/-- What a part of the text `whole` is read as. -/
def readPart (whole : String) (part : List Char) : Except GrammarError Path :=
  if part = [] then .error (.emptySegment whole) else parsePart part

theorem isPart_nil : IsPart [] [] [] :=
  ⟨List.not_mem_nil, [], rfl, rfl, by simp⟩

theorem readPart_eq_ok {whole : String} {part : List Char} {steps : Path} :
    readPart whole part = .ok steps ↔ IsSteps part steps := by
  constructor
  · intro h
    have hne : part ≠ [] := by
      rintro rfl
      exact nomatch h
    rw [readPart, if_neg hne] at h
    by_cases hform : ∃ name contents, IsPart part name contents
    · obtain ⟨name, contents, hpart⟩ := hform
      rw [parsePart_of_isPart hpart, map_mapM_eq_ok] at h
      simp only [parseIndex_eq_ok] at h
      obtain ⟨indices, hindices, rfl⟩ := h
      exact ⟨hne, name, contents, indices, hpart, hindices, rfl⟩
    · simp only [not_exists] at hform
      rw [parsePart_of_not_isPart hform] at h
      exact nomatch h
  · rintro ⟨hne, name, contents, indices, hpart, hindices, rfl⟩
    rw [readPart, if_neg hne, parsePart_of_isPart hpart, map_mapM_eq_ok]
    simp only [parseIndex_eq_ok]
    exact ⟨indices, hindices, rfl⟩

theorem readPart_eq_error {whole : String} {part : List Char} {fault : GrammarError} :
    readPart whole part = .error fault ↔ PartFault whole part fault := by
  constructor
  · intro h
    rw [readPart] at h
    split at h
    · next hnil =>
      subst hnil
      obtain rfl := Except.error.inj h
      exact .empty
    · by_cases hform : ∃ name contents, IsPart part name contents
      · obtain ⟨name, contents, hpart⟩ := hform
        rw [parsePart_of_isPart hpart, map_mapM_eq_error] at h
        simp only [parseIndex_eq_ok, parseIndex_eq_error] at h
        exact .index hpart h
      · simp only [not_exists] at hform
        rw [parsePart_of_not_isPart hform] at h
        obtain rfl := Except.error.inj h
        exact .malformed hform
  · rintro (_ | hform | ⟨hpart, hfirst⟩)
    · rfl
    · -- The empty part has the form of a part, so a malformed one is not empty.
      have hne : part ≠ [] := by
        rintro rfl
        exact hform [] [] isPart_nil
      rw [readPart, if_neg hne, parsePart_of_not_isPart hform]
    · have hne : part ≠ [] := by
        rintro rfl
        obtain ⟨before, inner, after, hsplit, -⟩ := hfirst
        have hnil := (isPart_iff.1 hpart).2
        simp [brackets, hsplit] at hnil
      rw [readPart, if_neg hne, parsePart_of_isPart hpart, map_mapM_eq_error]
      simpa only [parseIndex_eq_ok, parseIndex_eq_error] using hfirst

/-! ## Whole texts -/

theorem isParts_iff {text : String} {parts : List (List Char)} :
    IsParts text parts ↔ parts = Text.splitOn '.' text.toList := by
  constructor
  · rintro ⟨hne, hjoined, hdotless⟩
    rw [← hjoined, Text.splitOn_joinWith hne hdotless]
  · rintro rfl
    exact ⟨Text.splitOn_ne_nil '.' _, Text.joinWith_splitOn '.' _,
      fun _ hpart => Text.not_mem_of_mem_splitOn hpart⟩

theorem parseParts_eq_mapM (whole : String) (parts : List (List Char)) :
    parseParts whole parts = (parts.mapM (readPart whole)).map List.flatten := by
  induction parts with
  | nil => rfl
  | cons part parts ih =>
    rw [parseParts, List.mapM_cons, ih, readPart]
    cases part with
    | nil => rfl
    | cons c cs =>
      cases parsePart (c :: cs) with
      | error fault => rfl
      | ok steps => cases parts.mapM (readPart whole) <;> rfl

theorem parse_of_ne {text : String} (h : text ≠ "") :
    parse text = ((Text.splitOn '.' text.toList).mapM (readPart text)).map List.flatten := by
  rw [parse, if_neg (by simpa using h), parseParts_eq_mapM]

theorem parse_eq_ok {text : String} {path : Path} : parse text = .ok path ↔ Spells text path := by
  by_cases hempty : text = ""
  · subst hempty
    exact ⟨(fun h => nomatch h), fun h => absurd rfl h.nonempty⟩
  · rw [parse_of_ne hempty, map_mapM_eq_ok]
    simp only [readPart_eq_ok]
    constructor
    · rintro ⟨steps, hsteps, rfl⟩
      exact ⟨hempty, _, steps, isParts_iff.2 rfl, hsteps, rfl⟩
    · rintro ⟨-, parts, steps, hparts, hsteps, rfl⟩
      obtain rfl := isParts_iff.1 hparts
      exact ⟨steps, hsteps, rfl⟩

theorem parse_eq_error {text : String} {fault : GrammarError} :
    parse text = .error fault ↔ TextFault text fault := by
  by_cases hempty : text = ""
  · subst hempty
    constructor
    · intro h
      obtain rfl := Except.error.inj h
      exact .empty rfl
    · rintro (- | ⟨hne, -, -⟩)
      · rfl
      · exact absurd rfl hne
  · rw [parse_of_ne hempty, map_mapM_eq_error]
    simp only [readPart_eq_ok, readPart_eq_error]
    constructor
    · intro hfirst
      exact .part hempty (isParts_iff.2 rfl) hfirst
    · rintro (hnil | ⟨-, hparts, hfirst⟩)
      · exact absurd hnil hempty
      · obtain rfl := isParts_iff.1 hparts
        exact hfirst

end Path

/-- The parser accepts exactly the grammar, and every other text is blamed for its first fault. -/
theorem parse_exact (text : String) :
    (∀ path, Path.parse text = .ok path ↔ Path.Spells text path) ∧
      ∀ fault, Path.parse text = .error fault ↔ Path.TextFault text fault :=
  ⟨fun _ => Path.parse_eq_ok, fun _ => Path.parse_eq_error⟩

example : Path.parse "a].[007].b" = .ok [.field "a]", .index 7, .field "b"] := rfl

example : Path.parse "a[0][[1].b[" = .error (.invalidIndex "a[0][[1]" "[1") := rfl

end Dotpath
