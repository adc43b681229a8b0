import Dotpath.Proofs.EnvFile.Expansion
import Dotpath.Proofs.EnvFile.Values

/-!
# Values read before and after marking

A value is read alongside its marked form. Where the one opens a name the other has read a mark, and
it is left to expanding to find the name in what has been read. Quotes, escapes and the end of the
value are the same for both, as long as no name runs up against a character that means something.

Results:
1. `SameName.substitute`: a name in the making is one for expanding too.
2. `Alongside.next`, `exists_alongside`: one more character, and more of a value.
-/

namespace Dotpath.EnvFile

/-! ## Names -/

/-- The name that a value has open, and what is expected behind what has been read of its marked
form. -/
inductive SameName : Option OpenName → Expecting → Prop
  | text : SameName none .text
  /-- Only expanding takes underscores into a name. -/
  | past {found : List Char} : SameName none (.bare found)
  | name : SameName (some ⟨false, []⟩) .name
  | bare {c : Char} {cs found : List Char} : SameName (some ⟨false, c :: cs⟩) (.bare found)
  | braced {name found : List Char} : SameName (some ⟨true, name⟩) (.braced found)

theorem Expecting.next_mark (state : Expecting) :
    state.next mark = match state with
      | .braced found => .braced (found ++ [mark])
      | _ => .name := by
  have hname : ¬isNameChar mark = true := by decide +kernel
  cases state with
  | text => rfl
  | name => rw [next, if_neg (by decide), if_neg hname, if_pos rfl]
  | bare found => rw [next, if_neg hname, if_pos rfl]
  | braced found => rw [next, if_neg (by decide)]

theorem ValueState.open?_substitute (lookup : List Char → List Char) (state : ValueState)
    (opened : OpenName) (c : Char) :
    (state.substitute lookup opened c).open?
      = if Text.isAlphanumeric c then some ⟨opened.braced, opened.name ++ [c]⟩
        else if opened.braced then
          if c = '\x7d' then none else some ⟨opened.braced, opened.name ++ [c]⟩
        else if c = '\x7b' && opened.name.isEmpty then some ⟨true, []⟩
        else if c = '$' then some ⟨false, []⟩
        else none := by
  rw [substitute]
  split_ifs <;> rfl

namespace SameName

variable {state : Expecting} {c : Char}

theorem isClosed (h : SameName none state) : state.isClosed = true := by
  cases h <;> rfl

theorem next_mark (h : SameName none state) : SameName (some ⟨false, []⟩) (state.next mark) := by
  rw [Expecting.next_mark]
  cases h <;> exact .name

/-- Behind a name that has ended the text goes on, with an underscore perhaps for expanding. -/
theorem next_of_ne (hc : c ≠ mark) (hbrace : state = .name → c ≠ '\x7b')
    (hbraced : ∀ found, state ≠ .braced found) : SameName none (state.next c) := by
  cases state with
  | text =>
    rw [Expecting.next, if_neg hc]
    exact .text
  | name =>
    rw [Expecting.next, if_neg (hbrace rfl), if_neg hc]
    split
    · exact .past
    · exact .text
  | bare found =>
    rw [Expecting.next, if_neg hc]
    split
    · exact .past
    · exact .text
  | braced found => exact absurd rfl (hbraced found)

theorem next (h : SameName none state) (hc : c ≠ mark) : SameName none (state.next c) := by
  refine next_of_ne hc ?_ ?_
  · rintro rfl
    exact nomatch h
  · rintro found rfl
    exact nomatch h

/-- One more letter or digit of a name. -/
theorem next_of_isAlphanumeric {opened : OpenName} (h : SameName (some opened) state)
    (hc : Text.isAlphanumeric c = true) :
    SameName (some ⟨opened.braced, opened.name ++ [c]⟩) (state.next c) := by
  have hname : isNameChar c = true := by simp [isNameChar, hc]
  cases h with
  | name =>
    have hbrace : c ≠ '\x7b' := by
      rintro rfl
      exact absurd hc (by decide +kernel)
    rw [Expecting.next, if_neg hbrace, if_pos hname]
    exact .bare
  | bare =>
    rw [Expecting.next, if_pos hname]
    exact .bare
  | braced =>
    have hbrace : c ≠ '\x7d' := by
      rintro rfl
      exact absurd hc (by decide +kernel)
    rw [Expecting.next, if_neg hbrace]
    exact .braced

/-- One more character after the start of a name. -/
theorem substitute {lookup : List Char → List Char} {value : ValueState} {opened : OpenName}
    (h : SameName (some opened) state) (hc : c ≠ mark) :
    SameName (value.substitute lookup opened c).open?
      (state.next (if c = '$' then mark else c)) := by
  rw [ValueState.open?_substitute]
  split
  · next halnum =>
    have hdollar : c ≠ '$' := by
      rintro rfl
      exact absurd halnum (by decide +kernel)
    rw [if_neg hdollar]
    exact h.next_of_isAlphanumeric halnum
  · cases h with
    | @braced name found =>
      rw [if_pos rfl]
      by_cases hdollar : c = '$'
      · rw [hdollar, if_neg (by decide), if_pos rfl, Expecting.next_mark]
        exact .braced
      · rw [if_neg hdollar, Expecting.next]
        split
        · exact .text
        · exact .braced
    | name =>
      by_cases hdollar : c = '$'
      · rw [hdollar, if_pos rfl, if_pos rfl, Expecting.next_mark]
        exact .name
      · rw [if_neg hdollar, if_neg hdollar]
        by_cases hbrace : c = '\x7b'
        · subst hbrace
          exact .braced
        · have hnone : SameName none (Expecting.name.next c) :=
            next_of_ne hc (fun _ => hbrace) (by simp)
          simpa [hbrace] using hnone
    | @bare c' cs found =>
      have hstart : ¬(decide (c = '\x7b') && (c' :: cs).isEmpty) = true := by simp
      rw [if_neg hstart]
      by_cases hdollar : c = '$'
      · rw [hdollar, if_pos rfl, if_pos rfl, Expecting.next_mark]
        exact .name
      · rw [if_neg hdollar, if_neg hdollar]
        exact next_of_ne hc (by simp) (by simp)

/-- Text without marks, behind a name that has ended. -/
theorem after {text : List Char} (h : SameName none state) (htext : mark ∉ text) :
    SameName none (state.after text) := by
  induction text generalizing state with
  | nil => exact h
  | cons c cs ih =>
    rw [List.mem_cons, not_or] at htext
    exact ih (h.next (Ne.symm htext.1)) htext.2

end SameName

/-! ## Values and their marked forms -/

namespace ValueState

/-- The character would be one of the value if no name came before it. -/
def keeps (state : ValueState) (c : Char) : Bool :=
  c ≠ '"' && c ≠ '\\' && (state.weak || c ≠ '\'' && c ≠ ' ' && c ≠ '\t')

theorem flags_substitute (lookup : List Char → List Char) (state : ValueState) (opened : OpenName)
    (c : Char) :
    (state.substitute lookup opened c).strong = state.strong ∧
      (state.substitute lookup opened c).weak = state.weak ∧
      (state.substitute lookup opened c).escaped = state.escaped ∧
      (state.substitute lookup opened c).ended = state.ended := by
  rw [substitute]
  split_ifs <;> exact ⟨rfl, rfl, rfl, rfl⟩

theorem plain_of_keeps {state : ValueState} {c : Char} (h : state.keeps c = true) (hc : c ≠ '$') :
    state.plain c = state.push [c] := by
  rw [plain, if_neg hc]
  grind [keeps]

end ValueState

/-- Both have the same quotes and escapes open, and both or neither have ended. -/
structure SameFlags (raw marked : ValueState) : Prop where
  strong : marked.strong = raw.strong
  weak : marked.weak = raw.weak
  escaped : marked.escaped = raw.escaped
  ended : marked.ended = raw.ended

/-- A value and its marked form, read up to the same place. -/
structure Alongside (raw marked : ValueState) : Prop extends SameFlags raw marked where
  closed : marked.open? = none
  names : SameName raw.open? (Expecting.text.after marked.output)
  /-- Nothing is quoted or escaped within a name. -/
  single : raw.open?.isSome = true → raw.strong = false ∧ raw.escaped = false

theorem alongside_start : Alongside .start .start :=
  ⟨⟨rfl, rfl, rfl, rfl⟩, rfl, .text, nofun⟩

/-- The form in which a character is read after marking. -/
def ValueState.markChar (state : ValueState) (c : Char) : Char :=
  if c = '$' && !state.strong && !state.escaped then mark else c

namespace Alongside

variable {own : List Char → List Char} {raw raw' marked marked' : ValueState} {c : Char}

theorem open?_of_quoted (h : Alongside raw marked)
    (hquoted : raw.strong = true ∨ raw.escaped = true) : raw.open? = none := by
  cases hopen : raw.open? with
  | none => rfl
  | some opened =>
    obtain ⟨hstrong, hescaped⟩ := h.single (by rw [hopen]; rfl)
    simp [hstrong, hescaped] at hquoted

theorem names_of_quoted (h : Alongside raw marked)
    (hquoted : raw.strong = true ∨ raw.escaped = true) :
    SameName none (Expecting.text.after marked.output) :=
  h.open?_of_quoted hquoted ▸ h.names

/-- Both open or close the same, and no name. -/
theorem of_flags (h : Alongside raw marked) (hnone : raw.open? = none)
    (hflags : SameFlags raw' marked') (hopen : raw'.open? = none) (hclosed : marked'.open? = none)
    (houtput : marked'.output = marked.output) : Alongside raw' marked' where
  toSameFlags := hflags
  closed := hclosed
  names := by
    rw [hopen, houtput]
    exact hnone ▸ h.names
  single hsome := by simp [hopen] at hsome

/-- Both read the same text. -/
theorem push (h : Alongside raw marked) (hnone : raw.open? = none) {text : List Char}
    (htext : mark ∉ text) : Alongside (raw.push text) (marked.push text) where
  toSameFlags := ⟨h.strong, h.weak, h.escaped, h.ended⟩
  closed := h.closed
  names := by
    have hnames : SameName none (Expecting.text.after marked.output) := hnone ▸ h.names
    rw [ValueState.push, ValueState.push, hnone, Expecting.after_append]
    exact hnames.after htext
  single := h.single

theorem next_of_open (h : Alongside raw marked) {opened : OpenName}
    (hopen : raw.open? = some opened) (hc : c ≠ mark) (hkeeps : raw.keeps c = true) :
    ∃ marked', (∀ lookup, marked.next? lookup (raw.markChar c) = some marked') ∧
      Alongside (raw.substitute own opened c) marked' := by
  obtain ⟨hstrong, hescaped⟩ := h.single (by rw [hopen]; rfl)
  have hchar : raw.markChar c = if c = '$' then mark else c := by
    simp [ValueState.markChar, hstrong, hescaped]
  have hplain : marked.plain (raw.markChar c) = marked.push [raw.markChar c] := by
    rw [hchar]
    split
    · exact ValueState.plain_of_keeps (by simp [ValueState.keeps, mark]) (by decide)
    · next hdollar =>
      refine ValueState.plain_of_keeps ?_ hdollar
      rwa [ValueState.keeps, h.weak]
  obtain ⟨hstrong', hweak', hescaped', hended'⟩ :=
    ValueState.flags_substitute own raw opened c
  refine ⟨marked.push [raw.markChar c], fun lookup => ?_, ?_⟩
  · rw [ValueState.next?, h.escaped, hescaped, h.strong, hstrong, h.closed, hplain]
    rfl
  · exact {
      toSameFlags := ⟨h.strong.trans hstrong'.symm, h.weak.trans hweak'.symm,
        h.escaped.trans hescaped'.symm, h.ended.trans hended'.symm⟩
      closed := h.closed
      names := by
        have hnames : SameName (raw.substitute own opened c).open?
            ((Expecting.text.after marked.output).next (if c = '$' then mark else c)) :=
          (hopen ▸ h.names).substitute hc
        rw [ValueState.push, Expecting.after_append, hchar]
        exact hnames
      single := fun _ => ⟨hstrong'.trans hstrong, hescaped'.trans hescaped⟩ }

theorem next_of_plain (h : Alongside raw marked) (hstrong : raw.strong = false)
    (hescaped : raw.escaped = false) (hnone : raw.open? = none) (hc : c ≠ mark) :
    ∃ marked', (∀ lookup, marked.next? lookup (raw.markChar c) = some marked') ∧
      Alongside (raw.plain c) marked' := by
  have hnext (lookup : List Char → List Char) :
      marked.next? lookup (raw.markChar c) = some (marked.plain (raw.markChar c)) := by
    rw [ValueState.next?, h.escaped, hescaped, h.strong, hstrong, h.closed]
    rfl
  refine ⟨_, hnext, ?_⟩
  by_cases hdollar : c = '$'
  · -- A name starts here for the one, and a mark is read as it is for the other.
    subst hdollar
    have hchar : raw.markChar '$' = mark := by simp [ValueState.markChar, hstrong, hescaped]
    have hplain : marked.plain mark = marked.push [mark] :=
      ValueState.plain_of_keeps (by simp [ValueState.keeps, mark]) (by decide)
    rw [hchar, hplain, ValueState.plain, if_pos rfl]
    exact {
      toSameFlags := ⟨h.strong, h.weak, h.escaped, h.ended⟩
      closed := h.closed
      names := by
        rw [ValueState.push, Expecting.after_append]
        exact (hnone ▸ h.names).next_mark
      single := fun _ => ⟨hstrong, hescaped⟩ }
  · have hchar : raw.markChar c = c := by simp [ValueState.markChar, hdollar]
    rw [hchar, ValueState.plain, ValueState.plain, if_neg hdollar, if_neg hdollar, h.weak]
    have hpush : mark ∉ [c] := by simpa using Ne.symm hc
    -- A special character changes what is open, and any other is one of the value.
    split_ifs
    · exact h.of_flags hnone ⟨h.strong, rfl, h.escaped, h.ended⟩ hnone h.closed rfl
    · exact h.of_flags hnone ⟨h.strong, rfl, rfl, h.ended⟩ hnone h.closed rfl
    · exact h.push hnone hpush
    · exact h.of_flags hnone ⟨rfl, rfl, h.escaped, h.ended⟩ hnone h.closed rfl
    · exact h.of_flags hnone ⟨h.strong, rfl, h.escaped, h.ended⟩ hnone h.closed rfl
    · exact h.of_flags hnone ⟨h.strong, rfl, rfl, h.ended⟩ hnone h.closed rfl
    · exact h.of_flags hnone ⟨h.strong, rfl, h.escaped, rfl⟩ hnone h.closed rfl
    · exact h.push hnone hpush

theorem next_of_escaped (h : Alongside raw marked) (hescaped : raw.escaped = true) (hc : c ≠ mark)
    (hnext : raw.escape? c = some raw') :
    ∃ marked', marked.escape? c = some marked' ∧ Alongside raw' marked' := by
  have hnone := h.open?_of_quoted (.inr hescaped)
  have hclosed : Alongside { raw with escaped := false } { marked with escaped := false } :=
    h.of_flags hnone ⟨h.strong, h.weak, rfl, h.ended⟩ hnone h.closed rfl
  rw [ValueState.escape?] at hnext ⊢
  split at hnext
  · next hspecial =>
    obtain rfl := Option.some.inj hnext
    have hpush : mark ∉ [c] := by simpa using Ne.symm hc
    exact ⟨_, if_pos hspecial, hclosed.push hnone hpush⟩
  · next hspecial =>
    split at hnext
    · next hn =>
      obtain rfl := Option.some.inj hnext
      have hline : mark ∉ ['\n'] := by decide
      exact ⟨_, (if_neg hspecial).trans (if_pos hn), hclosed.push hnone hline⟩
    · cases hnext

theorem next_of_strong (h : Alongside raw marked) (hstrong : raw.strong = true) (hc : c ≠ mark) :
    Alongside (if c = '\'' then { raw with strong := false } else raw.push [c])
      (if c = '\'' then { marked with strong := false } else marked.push [c]) := by
  have hnone := h.open?_of_quoted (.inl hstrong)
  split
  · exact h.of_flags hnone ⟨rfl, h.weak, h.escaped, h.ended⟩ hnone h.closed rfl
  · have hpush : mark ∉ [c] := by simpa using Ne.symm hc
    exact h.push hnone hpush

/-- One more character. -/
theorem next (h : Alongside raw marked) (hc : c ≠ mark)
    (hkeeps : raw.open?.isSome = true → raw.keeps c = true)
    (hnext : raw.next? own c = some raw') :
    ∃ marked', (∀ lookup, marked.next? lookup (raw.markChar c) = some marked') ∧
      Alongside raw' marked' := by
  rw [ValueState.next?] at hnext
  split at hnext
  · next hescaped =>
    have hchar : raw.markChar c = c := by simp [ValueState.markChar, hescaped]
    obtain ⟨marked', hmarked, halongside⟩ := h.next_of_escaped hescaped hc hnext
    refine ⟨marked', fun lookup => ?_, halongside⟩
    rw [hchar, ValueState.next?, h.escaped, if_pos hescaped, hmarked]
  · next hescaped =>
    split at hnext
    · next hstrong =>
      have hchar : raw.markChar c = c := by simp [ValueState.markChar, hstrong]
      obtain rfl := Option.some.inj hnext
      refine ⟨_, fun lookup => ?_, h.next_of_strong hstrong hc⟩
      rw [hchar, ValueState.next?, h.escaped, if_neg hescaped, h.strong, if_pos hstrong]
    · next hstrong =>
      rw [Bool.not_eq_true] at hescaped hstrong
      split at hnext
      · next opened hopen =>
        obtain rfl := Option.some.inj hnext
        exact h.next_of_open hopen hc (hkeeps (by rw [hopen]; rfl))
      · next hnone =>
        obtain rfl := Option.some.inj hnext
        exact h.next_of_plain hstrong hescaped hnone hc

theorem markChar (h : Alongside raw marked) {m : MarkState} (hfollows : marked.Follows m)
    (hcomment : m.comment = false) (hended : raw.ended = false) (c : Char) :
    m.markChar c = raw.markChar c := by
  obtain ⟨hstrong, -, hescaped⟩ := hfollows.flags (h.ended.trans hended)
  rw [MarkState.markChar, MarkState.isOpen, ValueState.markChar, ← hstrong, ← hescaped, h.strong,
    h.escaped, hcomment]
  cases raw.strong <;> cases raw.escaped <;> simp

end Alongside

/-! ## Reading on -/

/-- Every name is followed by a character that would be one of the value anyhow. Reading takes the
character behind a name without braces into the value as it is, quotes, backslashes and blanks
included, and all that stands in braces into the name. -/
def namesEnd (lookup : List Char → List Char) (state : ValueState) : List Char → Bool
  | [] => true
  | c :: cs =>
    (state.open?.isNone || state.keeps c) && (state.next? lookup c).all (namesEnd lookup · cs)

section Runs

variable {own : List Char → List Char} {m : MarkState} {ended : Bool} {last : ValueState}

/-- Both are read on alongside, up to a dollar sign. -/
theorem exists_alongside {raw marked : ValueState} {front rest : List Char}
    (h : Alongside raw marked) (hfollows : marked.Follows m) (hcomment : m.comment = false)
    (hended : ended = true → raw.ended = true) (hcovered : Covered ended m (front ++ '$' :: rest))
    (hmark : mark ∉ front) (hnames : namesEnd own raw front = true)
    (hrun : raw.run? own front = some last) (hlast : last.ended = false) :
    ∃ last', (∀ lookup, marked.run? lookup (markFrom m front) = some last') ∧
      Alongside last last' ∧ last'.Follows (m.after front) := by
  induction front generalizing raw marked m ended with
  | nil =>
    obtain rfl := Option.some.inj hrun
    exact ⟨marked, fun _ => rfl, h, hfollows⟩
  | cons c cs ih =>
    cases hraw : raw.ended with
    | true =>
      rw [ValueState.run?_of_ended hraw hrun, hraw] at hlast
      exact nomatch hlast
    | false =>
      rw [ValueState.run?_of_next? hraw] at hrun
      obtain ⟨raw', hnext, hrest⟩ := Option.bind_eq_some_iff.1 hrun
      rw [List.mem_cons, not_or] at hmark
      rw [namesEnd, hnext, Option.all_some, Bool.and_eq_true] at hnames
      have hkeeps : raw.open?.isSome = true → raw.keeps c = true := by
        intro hopen
        simpa [Option.isNone_eq_false_iff.2 hopen] using hnames.1
      obtain ⟨marked', hnext', halongside⟩ := h.next (Ne.symm hmark.1) hkeeps hnext
      have hmarked : marked.ended = false := h.ended.trans hraw
      have hchar := h.markChar hfollows hcomment hraw c
      rcases hcovered with hnot | ⟨hend, -⟩ | ⟨hcomment', hcs⟩
      · exact absurd (by simp) hnot
      · rw [hended hend] at hraw
        exact nomatch hraw
      · have hdollar (hc : m.markChar c = '$') : m.strong = true ∨ m.escaped = true :=
          quoted_of_isOpen hcomment (MarkState.isOpen_of_markChar hc)
        have hstep : marked.next? own (m.markChar c) = some marked' := hchar ▸ hnext' own
        have hfollows' := hfollows.next? hmarked hdollar hcomment
          (by rwa [MarkState.next_markChar]) hstep
        rw [MarkState.next_markChar] at hfollows'
        have hends (hend : m.endsAt c = true) : raw'.ended = true := by
          rw [← halongside.ended]
          refine ValueState.ended_of_endsAt hfollows hmarked ?_ hstep
          rwa [MarkState.test_markChar m.endsAt rfl]
        obtain ⟨last', hrun', hlast'⟩ :=
          ih halongside hfollows' hcomment' hends hcs hmark.2 hnames.2 hrest
        refine ⟨last', fun lookup => ?_, hlast'⟩
        rw [markFrom_cons, ValueState.run?_of_next? hmarked, hchar, hnext', Option.bind_some,
          hrun']

end Runs

end Dotpath.EnvFile
