import Dotpath.Proofs.EnvFile.Marking
import Mathlib.Tactic.SplitIfs

/-!
# Scanning lines

Lines are joined and dollar signs are marked by two scanners that know nothing of each other. On an
orderly line they agree on what is quoted, and wherever they differ on what is a comment, the rest
of the line is harmless.

Results:
1. `Agrees.next`, `tracked_next`: one more character keeps the two scanners together.
2. `scanned_scan`: what a line does to them.
-/

namespace Dotpath.EnvFile

/-! ## Covered texts -/

/-- Marking meets no comment on the text. -/
def Clear (state : MarkState) : List Char → Prop
  | [] => True
  | c :: cs => (state.next c).comment = false ∧ Clear (state.next c) cs

/-- A value ends at a space or a tab where nothing is open. -/
def MarkState.endsAt (state : MarkState) (c : Char) : Bool :=
  (c = ' ' || c = '\t') && !state.strong && !state.weak && !state.escaped

/-- The text is clear up to a point from which on it has no dollar sign, or where a value has ended
and a number sign follows. `ended` tells whether a value has ended right before the text. -/
def Covered (ended : Bool) (state : MarkState) : List Char → Prop
  | [] => True
  | c :: cs =>
    '$' ∉ c :: cs ∨ ended = true ∧ c = '#' ∨
      (state.next c).comment = false ∧ Covered (state.endsAt c) (state.next c) cs

theorem clear_append {state : MarkState} {text more : List Char} :
    Clear state (text ++ more) ↔ Clear state text ∧ Clear (state.after text) more := by
  induction text generalizing state with
  | nil => simp [Clear]
  | cons c cs ih => simp [Clear, ih, and_assoc]

theorem Clear.comment {state : MarkState} {text : List Char} (h : Clear state text)
    (hcomment : state.comment = false) : (state.after text).comment = false := by
  induction text generalizing state with
  | nil => exact hcomment
  | cons c cs ih => exact ih h.2 h.1

namespace Covered

variable {ended : Bool} {state : MarkState} {text more : List Char}

theorem of_not_mem (h : '$' ∉ text) : Covered ended state text := by
  cases text with
  | nil => trivial
  | cons c cs => exact .inl h

theorem of_false (h : Covered false state text) : Covered ended state text := by
  cases text with
  | nil => trivial
  | cons c cs => exact h.imp_right (Or.imp_left fun hended => nomatch hended.1)

theorem of_head? (h : Covered ended state text) (hhead : text.head? ≠ some '#') :
    Covered false state text := by
  cases text with
  | nil => trivial
  | cons c cs =>
    exact h.imp_right (Or.imp_left fun hended => absurd (congrArg some hended.2) hhead)

theorem append (hclear : Clear state text) (h : Covered false (state.after text) more) :
    Covered ended state (text ++ more) := by
  induction text generalizing ended state with
  | nil => exact of_false h
  | cons c cs ih => exact .inr (.inr ⟨hclear.1, ih hclear.2 h⟩)

theorem left (h : Covered ended state (text ++ more)) : Covered ended state text := by
  induction text generalizing ended state with
  | nil => trivial
  | cons c cs ih =>
    rcases h with h | h | ⟨hcomment, h⟩
    · exact .inl fun hmem => h (List.mem_append_left more hmem)
    · exact .inr (.inl h)
    · exact .inr (.inr ⟨hcomment, ih h⟩)

/-- What comes after a text without number signs. -/
theorem right (h : Covered ended state (text ++ more)) (htext : '#' ∉ text) :
    ∃ ended, Covered ended (state.after text) more := by
  induction text generalizing ended state with
  | nil => exact ⟨ended, h⟩
  | cons c cs ih =>
    rw [List.mem_cons, not_or] at htext
    rcases h with h | ⟨-, hc⟩ | ⟨-, h⟩
    · exact ⟨false, of_not_mem fun hmem => h (List.mem_append_right (c :: cs) hmem)⟩
    · exact absurd hc.symm htext.1
    · exact ih h htext.2

/-- Marking does not uncover a text. -/
theorem markFrom (h : Covered ended state text) :
    Covered ended state (markFrom state text) := by
  induction text generalizing ended state with
  | nil => trivial
  | cons c cs ih =>
    rcases h with h | ⟨hended, rfl⟩ | ⟨hcomment, h⟩
    · rw [markFrom_of_not_mem h]
      exact of_not_mem h
    · rw [markFrom_cons, MarkState.markChar_of_ne (by decide)]
      exact .inr (.inl ⟨hended, rfl⟩)
    · have hends : state.endsAt (state.markChar c) = state.endsAt c :=
        MarkState.test_markChar state.endsAt rfl
      rw [markFrom_cons]
      refine .inr (.inr ?_)
      rw [MarkState.next_markChar, hends]
      exact ⟨hcomment, ih h⟩

end Covered

theorem Clear.covered {state : MarkState} {text : List Char} (h : Clear state text) (ended : Bool) :
    Covered ended state text := by
  rw [← List.append_nil text]
  exact .append h trivial

/-! ## Quiet characters -/

/-- A character that opens nothing and starts no comment. -/
def isQuiet (c : Char) : Bool :=
  c ≠ '\\' && c ≠ '\'' && c ≠ '"' && c ≠ '#'

theorem isQuiet_iff {c : Char} :
    isQuiet c = true ↔ c ≠ '\\' ∧ c ≠ '\'' ∧ c ≠ '"' ∧ c ≠ '#' := by
  simp [isQuiet, and_assoc]

/-- A class of characters is quiet if the four special ones are not in it. -/
theorem isQuiet_of_test {test : Char → Bool} {c : Char} (h : test c = true)
    (hspecial : ['\\', '\'', '"', '#'].any test = false) : isQuiet c = true := by
  have hne (special : Char) (hmem : special ∈ ['\\', '\'', '"', '#']) : c ≠ special := by
    rintro rfl
    exact List.any_eq_false.1 hspecial c hmem h
  exact isQuiet_iff.2 ⟨hne _ (by simp), hne _ (by simp), hne _ (by simp), hne _ (by simp)⟩

theorem isQuiet_of_isBlank {c : Char} (h : Text.isBlank c = true) : isQuiet c = true :=
  isQuiet_of_test h (by decide)

namespace MarkState

/-- Nothing is open. -/
structure IsPlain (state : MarkState) : Prop where
  strong : state.strong = false
  weak : state.weak = false
  escaped : state.escaped = false

theorem eq_start {state : MarkState} (h : state.IsPlain) (hcomment : state.comment = false)
    (hblank : state.afterBlank = true) : state = start := by
  obtain ⟨strong, weak, escaped, comment, afterBlank⟩ := state
  obtain ⟨rfl, rfl, rfl⟩ := h
  obtain rfl := hcomment
  obtain rfl := hblank
  rfl

theorem next_of_isQuiet {state : MarkState} (hplain : state.IsPlain)
    (hcomment : state.comment = false) {c : Char} (h : isQuiet c = true) :
    state.next c = { state with afterBlank := Text.isBlank c } := by
  obtain ⟨hbackslash, hquote, hdouble, hnumber⟩ := isQuiet_iff.1 h
  simp [next, hcomment, hplain.strong, hplain.escaped, hbackslash, hquote, hdouble, hnumber]

end MarkState

/-! ## Comments and ends of lines -/

/-- A comment starts at a number sign behind a blank where nothing is open. -/
theorem comment_of_next {state : MarkState} {c : Char} (hcomment : state.comment = false)
    (h : (state.next c).comment = true) :
    c = '#' ∧ state.IsPlain ∧ state.afterBlank = true := by
  obtain ⟨strong, weak, escaped, comment, afterBlank⟩ := state
  obtain rfl := hcomment
  revert h
  simp only [MarkState.next]
  split_ifs <;> simp_all
  exact ⟨rfl, rfl, rfl⟩

/-- A line with its line end. -/
def EndsLine (line : List Char) : Prop :=
  ∃ body, '\n' ∉ body ∧ line = body ++ ['\n']

theorem not_endsLine_nil : ¬EndsLine [] := by
  rintro ⟨body, -, h⟩
  simp at h

theorem endsLine_cons {c : Char} {cs : List Char} (h : EndsLine (c :: cs)) :
    c = '\n' ∧ cs = [] ∨ EndsLine cs := by
  obtain ⟨body, hbody, heq⟩ := h
  rcases List.cons_eq_append_iff.1 heq with ⟨rfl, heq⟩ | ⟨rest, rfl, rfl⟩
  · exact .inl (List.cons.inj heq)
  · exact .inr ⟨rest, fun hmem => hbody (List.mem_cons_of_mem c hmem), rfl⟩

theorem afterBlank_of_endsLine {line : List Char} (h : EndsLine line) (state : MarkState) :
    (state.after line).afterBlank = true := by
  obtain ⟨body, -, rfl⟩ := h
  rw [MarkState.after_append]
  exact MarkState.afterBlank_next _ _

/-- A comment lasts to the end of its line. -/
theorem after_comment {state : MarkState} (hplain : state.IsPlain) (hcomment : state.comment = true)
    {line : List Char} (h : EndsLine line) : state.after line = .start := by
  obtain ⟨body, hbody, rfl⟩ := h
  induction body generalizing state with
  | nil =>
    obtain ⟨strong, weak, escaped, comment, afterBlank⟩ := state
    obtain ⟨rfl, rfl, rfl⟩ := hplain
    obtain rfl := hcomment
    rfl
  | cons c cs ih =>
    rw [List.mem_cons, not_or] at hbody
    have hnext : state.next c = { state with afterBlank := Text.isBlank c } := by
      simp [MarkState.next, hcomment, Ne.symm hbody.1]
    rw [List.cons_append, MarkState.after_cons]
    refine ih ?_ ?_ hbody.2
    · exact hnext ▸ ⟨hplain.1, hplain.2, hplain.3⟩
    · rw [hnext, ← hcomment]

theorem after_numberSign {state : MarkState} (hplain : state.IsPlain)
    (hcomment : state.comment = false) (hblank : state.afterBlank = true) {rest : List Char}
    (h : EndsLine ('#' :: rest)) : state.after ('#' :: rest) = .start := by
  obtain ⟨strong, weak, escaped, comment, afterBlank⟩ := state
  obtain ⟨rfl, rfl, rfl⟩ := hplain
  obtain rfl := hcomment
  obtain rfl := hblank
  have hrest := (endsLine_cons h).resolve_left fun hc => absurd hc.1 (by decide)
  rw [MarkState.after_cons]
  exact after_comment ⟨rfl, rfl, rfl⟩ rfl hrest

/-! ## Two scanners on one line -/

namespace LineState

/-- Both scanners have the same quotes and escapes open. -/
def Agrees : LineState → MarkState → Prop
  | complete, m => m.strong = false ∧ m.weak = false ∧ m.escaped = false
  | blank, m => m.strong = false ∧ m.weak = false ∧ m.escaped = false
  | escape, m => m.strong = false ∧ m.weak = false ∧ m.escaped = true
  | strong, m => m.strong = true ∧ m.weak = false ∧ m.escaped = false
  | strongEscape, m => m.strong = true ∧ m.weak = false ∧ m.escaped = false
  | weak, m => m.strong = false ∧ m.weak = true ∧ m.escaped = false
  | weakEscape, m => m.strong = false ∧ m.weak = true ∧ m.escaped = true

theorem opened_of_isQuiet {c : Char} (h : isQuiet c = true) : opened c = complete := by
  obtain ⟨hbackslash, hquote, hdouble, -⟩ := isQuiet_iff.1 h
  rw [opened, if_neg hbackslash, if_neg hdouble, if_neg hquote]

theorem agrees_opened {m : MarkState} {c : Char} (hplain : m.IsPlain)
    (hcomment : m.comment = false) (hcomment' : (m.next c).comment = false) :
    (opened c).Agrees (m.next c) := by
  obtain ⟨strong, weak, escaped, comment, afterBlank⟩ := m
  obtain ⟨rfl, rfl, rfl⟩ := hplain
  obtain rfl := hcomment
  revert hcomment'
  simp only [opened, MarkState.next]
  split_ifs <;> simp_all [Agrees]

/-- The scanners agree after one more character, unless that is a quote that only one of them takes
for escaped. -/
theorem Agrees.next {state state' : LineState} {m : MarkState} {c : Char} (h : state.Agrees m)
    (hcomment : m.comment = false) (hnext : state.next? c = some state')
    (hcomment' : (m.next c).comment = false) (hquote : state = .strongEscape → c ≠ '\'') :
    state'.Agrees (m.next c) := by
  cases state with
  | complete =>
    have hopened := agrees_opened ⟨h.1, h.2.1, h.2.2⟩ hcomment hcomment'
    obtain rfl := Option.some.inj hnext
    split
    · next hblank =>
      simp only [Bool.and_eq_true] at hblank
      rwa [opened_of_isQuiet (isQuiet_of_isBlank hblank.1.1)] at hopened
    · exact hopened
  | blank =>
    have hopened := agrees_opened ⟨h.1, h.2.1, h.2.2⟩ hcomment hcomment'
    rw [next?] at hnext
    split at hnext
    · exact nomatch hnext
    · exact Option.some.inj hnext ▸ hopened
  | escape =>
    obtain rfl := Option.some.inj hnext
    simp [Agrees, MarkState.next, h.1, h.2.1, h.2.2, hcomment]
  | strong =>
    obtain rfl := Option.some.inj hnext
    simp only [MarkState.next, hcomment, h.1, h.2.1, h.2.2]
    split_ifs <;> simp_all [Agrees]
  | strongEscape =>
    obtain rfl := Option.some.inj hnext
    simp [Agrees, MarkState.next, h.1, h.2.1, h.2.2, hcomment, hquote rfl]
  | weak =>
    obtain rfl := Option.some.inj hnext
    simp only [MarkState.next, hcomment, h.1, h.2.1, h.2.2]
    split_ifs <;> simp_all [Agrees]
  | weakEscape =>
    obtain rfl := Option.some.inj hnext
    simp [Agrees, MarkState.next, h.1, h.2.1, h.2.2, hcomment]

theorem Agrees.isPlain {state : LineState} {m : MarkState} (h : state.Agrees m)
    (hstate : state = complete ∨ state = blank) : m.IsPlain := by
  rcases hstate with rfl | rfl
  · exact ⟨h.1, h.2.1, h.2.2⟩
  · exact ⟨h.1, h.2.1, h.2.2⟩

theorem Agrees.of_isPlain {state : LineState} {m : MarkState} (h : state.Agrees m)
    (hplain : m.IsPlain) : state = complete ∨ state = blank := by
  obtain ⟨strong, weak, escaped, comment, afterBlank⟩ := m
  obtain ⟨rfl, rfl, rfl⟩ := hplain
  cases state <;> simp_all [Agrees]

/-! ### Scanning -/

theorem next?_eq_none {state : LineState} {c : Char} (h : state.next? c = none) :
    state = blank ∧ c = '#' := by
  cases state with
  | blank =>
    rw [next?] at h
    split at h
    · next hc => exact ⟨rfl, hc⟩
    · exact nomatch h
  | _ => exact nomatch h

theorem next?_newline {state next : LineState} (h : state.next? '\n' = some next) :
    next = complete ∨ next.isQuoted = true := by
  cases state <;> obtain rfl := Option.some.inj h <;> decide

theorem next?_strongEscape {state : LineState} {c : Char} (h : state.next? c = some strongEscape) :
    state = strong ∧ c = '\\' := by
  cases state <;> simp only [next?, opened] at h <;> grind

/-- Quotes stay open over a quiet character. -/
theorem next?_of_isQuoted {state : LineState} (h : state.isQuoted = true) {c : Char}
    (hquiet : isQuiet c = true) : state.next? c = some state := by
  obtain ⟨hbackslash, hquote, hdouble, -⟩ := isQuiet_iff.1 hquiet
  cases state with
  | weak => rw [next?, if_neg hbackslash, if_neg hdouble]
  | strong => rw [next?, if_neg hbackslash, if_neg hquote]
  | _ => exact nomatch h

theorem scan_of_none {state : LineState} {c : Char} (h : state.next? c = none) (cs : List Char) :
    state.scan (c :: cs) = .inr [] := by
  rw [scan, h]

theorem scan_of_some {state state' : LineState} {c : Char} (h : state.next? c = some state')
    (cs : List Char) : state.scan (c :: cs) = (state'.scan cs).map id (c :: ·) := by
  rw [scan, h]
  dsimp only
  cases state'.scan cs <;> rfl

/-- A scan stops nowhere but at the start of a comment. -/
theorem append_of_scan {state : LineState} {line before : List Char}
    (h : state.scan line = .inr before) : ∃ rest, line = before ++ rest := by
  induction line generalizing state before with
  | nil => simp [scan] at h
  | cons c cs ih =>
    cases hnext : state.next? c with
    | none =>
      rw [scan_of_none hnext] at h
      obtain rfl := Sum.inr.inj h
      exact ⟨c :: cs, rfl⟩
    | some next =>
      rw [scan_of_some hnext] at h
      cases hscan : next.scan cs with
      | inl last => simp [hscan] at h
      | inr before' =>
        rw [hscan] at h
        obtain rfl := Sum.inr.inj h
        obtain ⟨rest, rfl⟩ := ih hscan
        exact ⟨rest, rfl⟩

/-- The end of a line leaves at most a quote open. -/
theorem scan_of_endsLine {state last : LineState} {line : List Char} (hline : EndsLine line)
    (h : state.scan line = .inl last) : last = complete ∨ last.isQuoted = true := by
  induction line generalizing state with
  | nil => exact absurd hline not_endsLine_nil
  | cons c cs ih =>
    cases hnext : state.next? c with
    | none => simp [scan_of_none hnext] at h
    | some next =>
      rw [scan_of_some hnext] at h
      cases hscan : next.scan cs with
      | inr before => simp [hscan] at h
      | inl last' =>
        rw [hscan] at h
        obtain rfl := Sum.inl.inj h
        rcases endsLine_cons hline with ⟨rfl, rfl⟩ | hline
        · obtain rfl := Sum.inl.inj hscan
          exact next?_newline hnext
        · exact ih hline hscan

end LineState

/-! ### Both scanners -/

/-- What is known of both scanners after the start of a line, which is given last character first.
`ended` tells whether a value has just ended. -/
structure Tracked (before : List Char) (ended : Bool) (state : LineState) (m : MarkState) :
    Prop where
  agrees : state.Agrees m
  comment : m.comment = false
  afterBlank : m.afterBlank = before.head?.all Text.isBlank
  blank : state = .blank → m.afterBlank = true
  escaped : m.escaped = true → before.head? = some '\\'
  ended : m.IsPlain → endsValue before = true → ended = true
  /-- Only a blank or a backslash can make the next character a special one. -/
  settled : ∀ last rest, before = last :: rest → Text.isBlank last = false → last ≠ '\\' →
    state = .complete ∨ state = .weak ∨ state = .strong
  /-- Where nothing is quoted, a single blank starts what may be a comment. -/
  single : ∀ blank last rest, before = blank :: last :: rest → Text.isBlank blank = true →
    blank ≠ '\r' → Text.isBlank last = false → last ≠ '\\' → state ≠ .complete

theorem escaped_of_next {m : MarkState} {c : Char} (h : (m.next c).escaped = true)
    (hcomment : m.comment = false) : c = '\\' := by
  obtain ⟨strong, weak, escaped, comment, afterBlank⟩ := m
  obtain rfl := hcomment
  revert h
  simp only [MarkState.next]
  split_ifs <;> simp_all

/-- A quiet character closes nothing but an escape. -/
theorem isPlain_of_next {m : MarkState} {c : Char} (h : (m.next c).IsPlain)
    (hcomment : m.comment = false) (hescaped : m.escaped = false)
    (hquiet : isQuiet c = true) : m.IsPlain := by
  obtain ⟨strong, weak, escaped, comment, afterBlank⟩ := m
  obtain rfl := hcomment
  obtain rfl := hescaped
  obtain ⟨hbackslash, hquote, hdouble, hnumber⟩ := isQuiet_iff.1 hquiet
  obtain ⟨hstrong, hweak, -⟩ := h
  cases strong <;> cases weak <;> simp_all [MarkState.next]
  exact ⟨rfl, rfl, rfl⟩

open LineState in
theorem tracked_next {before : List Char} {ended : Bool} {state state' : LineState} {m : MarkState}
    {c : Char} (h : Tracked before ended state m) (hnext : state.next? c = some state')
    (hcomment : (m.next c).comment = false) (hquote : state = .strongEscape → c ≠ '\'')
    (hline : c ≠ '\n') : Tracked (c :: before) (m.endsAt c) state' (m.next c) where
  agrees := h.agrees.next h.comment hnext hcomment hquote
  comment := hcomment
  afterBlank := rfl
  blank := by
    rintro rfl
    cases state <;> simp only [next?, opened] at hnext <;> grind [MarkState.afterBlank_next]
  escaped hescaped := congrArg some (escaped_of_next hescaped h.comment)
  ended hplain hends := by
    have hescaped := h.escaped
    match before, hends, hescaped with
    | last :: rest, hends, hescaped =>
      simp only [endsValue, Bool.and_eq_true, Bool.or_eq_true, decide_eq_true_eq] at hends
      have hquiet : isQuiet c = true := by
        rcases hends.1 with rfl | rfl <;> decide
      have hm : m.escaped = false := by
        rw [← Bool.not_eq_true]
        exact fun hm => hends.2 (Option.some.inj (hescaped hm))
      obtain ⟨hstrong, hweak, -⟩ := isPlain_of_next hplain h.comment hm hquiet
      simpa [MarkState.endsAt, hstrong, hweak, hm] using hends.1
  settled last rest hlast hblank hbackslash := by
    obtain ⟨rfl, rfl⟩ := List.cons.inj hlast
    cases state <;> simp only [next?, opened] at hnext <;> grind
  single blank last rest hlast hblank hreturn hsettled hbackslash := by
    obtain ⟨rfl, rfl⟩ := List.cons.inj hlast
    have hquiet := isQuiet_of_isBlank hblank
    rcases h.settled last rest rfl hsettled hbackslash with rfl | rfl | rfl
    · rw [next?, if_pos (by simp [hblank, hline, hreturn])] at hnext
      simp [← Option.some.inj hnext]
    · rw [next?_of_isQuoted rfl hquiet] at hnext
      simp [← Option.some.inj hnext]
    · rw [next?_of_isQuoted rfl hquiet] at hnext
      simp [← Option.some.inj hnext]

/-- What a scan of a line comes to, where marking is in state `m` at its start. The line is covered
up to a comment, and marking starts anew behind it, unless a quote is open at its end. -/
def Scanned (ended : Bool) (m : MarkState) (line : List Char) : LineState ⊕ List Char → Prop
  | .inr before => Covered ended m before ∧ (EndsLine line → m.after line = .start)
  | .inl state => Covered ended m line ∧ (EndsLine line →
      state = .complete ∧ m.after line = .start ∨
        state.isQuoted = true ∧ state.Agrees (m.after line) ∧ Clear m line)

theorem quoted_of_isOpen {m : MarkState} (hcomment : m.comment = false) (h : m.isOpen = false) :
    m.strong = true ∨ m.escaped = true := by
  simp only [MarkState.isOpen, hcomment] at h
  grind

theorem isOpen_of_quoted {m : MarkState} (h : m.strong = true ∨ m.escaped = true) :
    m.isOpen = false := by
  rcases h with h | h <;> simp [MarkState.isOpen, h]

/-- Where a comment is plain to see, marking does not find one by itself. -/
theorem Tracked.introduces {before : List Char} {ended : Bool} {m : MarkState}
    (h : Tracked before ended .complete m) (hblank : m.afterBlank = true)
    (hall : before.all Text.isBlank = false) : introduces before = false := by
  have hhead := h.afterBlank
  rw [hblank] at hhead
  unfold EnvFile.introduces
  rw [hall, Bool.false_or]
  match before, h, hall, hhead with
  | [], _, hall, _ => exact nomatch hall
  | [blank], _, hall, hhead => simp_all
  | blank :: last :: rest, h, hall, hhead =>
    have hsingle := h.single blank last rest rfl
    simp only [List.head?_cons, Option.all_some] at hhead
    simp only [← hhead]
    grind

/-- Marking takes the rest of the line for a comment, and nothing in it matters. -/
theorem scanned_of_comment {ended : Bool} {m : MarkState} (hplain : m.IsPlain)
    (hcomment : m.comment = false) (hblank : m.afterBlank = true) {rest : List Char}
    (hquotes : closesQuotes .complete rest = true) (hdollar : ended = true ∨ '$' ∉ rest) :
    Scanned ended m ('#' :: rest) ((LineState.complete.scan rest).map id ('#' :: ·)) := by
  have hstart (hend : EndsLine ('#' :: rest)) : m.after ('#' :: rest) = .start :=
    after_numberSign hplain hcomment hblank hend
  have hcovered {part more : List Char} (hpart : rest = part ++ more) :
      Covered ended m ('#' :: part) := by
    subst hpart
    rcases hdollar with hended | hdollar
    · exact .inr (.inl ⟨hended, rfl⟩)
    · refine .inl (List.not_mem_cons_of_ne_of_not_mem (by decide) fun hmem => hdollar ?_)
      exact List.mem_append_left more hmem
  cases hscan : LineState.complete.scan rest with
  | inr before =>
    obtain ⟨more, hmore⟩ := LineState.append_of_scan hscan
    exact ⟨hcovered hmore, hstart⟩
  | inl state =>
    refine ⟨hcovered (List.append_nil rest).symm, fun hend => .inl ⟨?_, hstart hend⟩⟩
    have hrest := (endsLine_cons hend).resolve_left fun hc => absurd hc.1 (by decide)
    refine (LineState.scan_of_endsLine hrest hscan).resolve_right fun hquoted => ?_
    simp [closesQuotes, hscan, hquoted] at hquotes

/-- Marking finds a comment where the other scanner reads on. That is no comment at the start of the
line. -/
theorem scanned_numberSign {before rest : List Char} {ended : Bool} {state next : LineState}
    {m : MarkState} (h : Tracked before ended state m) (hnext : state.next? '#' = some next)
    (hcomment : (m.next '#').comment = true)
    (hnumbers : numberSignsClear before ('#' :: rest) = true)
    (hfirst : before.all Text.isBlank = true → state.isQuoted = true) :
    Scanned ended m ('#' :: rest) ((next.scan rest).map id ('#' :: ·)) := by
  obtain ⟨-, hplain, hblank⟩ := comment_of_next h.comment hcomment
  rcases h.agrees.of_isPlain hplain with rfl | rfl
  · obtain rfl := Option.some.inj hnext
    have hall : before.all Text.isBlank = false := by
      rw [← Bool.not_eq_true]
      exact fun hall => absurd (hfirst hall) (by decide)
    simp only [numberSignsClear, h.introduces hblank hall, ne_eq, not_true_eq_false, decide_false,
      Bool.false_or, Bool.and_eq_true, Bool.or_eq_true, Bool.not_eq_true', List.contains_eq_mem,
      decide_eq_false_iff_not] at hnumbers
    obtain ⟨⟨hquotes, hdollar⟩, -⟩ := hnumbers
    exact scanned_of_comment hplain h.comment hblank hquotes (hdollar.imp_left (h.ended hplain))
  · simp [LineState.next?] at hnext

theorem Scanned.cons {ended : Bool} {m : MarkState} {c : Char} {cs : List Char}
    {outcome : LineState ⊕ List Char} (hcomment : (m.next c).comment = false) (hline : c ≠ '\n')
    (h : Scanned (m.endsAt c) (m.next c) cs outcome) :
    Scanned ended m (c :: cs) (outcome.map id (c :: ·)) := by
  have hends (hend : EndsLine (c :: cs)) : EndsLine cs :=
    (endsLine_cons hend).resolve_left fun hc => hline hc.1
  cases outcome with
  | inr before => exact ⟨.inr (.inr ⟨hcomment, h.1⟩), fun hend => h.2 (hends hend)⟩
  | inl state =>
    refine ⟨.inr (.inr ⟨hcomment, h.1⟩), fun hend => (h.2 (hends hend)).imp_right ?_⟩
    exact fun ⟨hquoted, hagrees, hclear⟩ => ⟨hquoted, hagrees, hcomment, hclear⟩

/-- The end of a line leaves at most a quote open. -/
theorem scanned_newline {before : List Char} {ended : Bool} {state next : LineState}
    {m : MarkState} (h : Tracked before ended state m) (hnext : state.next? '\n' = some next) :
    Scanned ended m ['\n'] (.inl next) := by
  have hcomment : (m.next '\n').comment = false := by
    rw [← Bool.not_eq_true]
    exact fun hcomment => absurd (comment_of_next h.comment hcomment).1 (by decide)
  have hagrees := h.agrees.next h.comment hnext hcomment fun _ => by decide
  have hclear : Clear m ['\n'] := ⟨hcomment, trivial⟩
  refine ⟨hclear.covered ended, fun _ => ?_⟩
  rcases LineState.next?_newline hnext with rfl | hquoted
  · exact .inl ⟨rfl, MarkState.eq_start (hagrees.isPlain (.inl rfl)) hcomment rfl⟩
  · exact .inr ⟨hquoted, hagrees, hclear⟩

theorem scanned_scan {before line : List Char} {ended : Bool} {state : LineState} {m : MarkState}
    (h : Tracked before ended state m) (hquotes : quotesEnd m line = true)
    (hnumbers : numberSignsClear before line = true)
    (hescape : state = .strongEscape → line.head? ≠ some '\'')
    (hfirst : before.all Text.isBlank = true → isComment line = true → state.isQuoted = true)
    (hline : '\n' ∉ line.dropLast) : Scanned ended m line (state.scan line) := by
  -- `Tracked` holds both scanners together up to the first comment that either of them finds.
  induction line generalizing before ended state m with
  | nil => exact ⟨trivial, fun hend => absurd hend not_endsLine_nil⟩
  | cons c cs ih =>
    have hnumbers' : numberSignsClear (c :: before) cs = true := by
      rw [numberSignsClear, Bool.and_eq_true] at hnumbers
      exact hnumbers.2
    rw [quotesEnd, Bool.and_eq_true] at hquotes
    cases hnext : state.next? c with
    | none =>
      -- A comment for the one scanner is a comment for the other.
      obtain ⟨rfl, rfl⟩ := LineState.next?_eq_none hnext
      rw [LineState.scan_of_none hnext]
      refine ⟨trivial, ?_⟩
      exact after_numberSign (h.agrees.isPlain (.inr rfl)) h.comment (h.blank rfl)
    | some next =>
      rw [LineState.scan_of_some hnext]
      cases hcomment : (m.next c).comment with
      | true =>
        -- The converse fails; this is where number signs have to be clear.
        obtain ⟨rfl, -⟩ := comment_of_next h.comment hcomment
        have hquoted (hall : before.all Text.isBlank = true) : state.isQuoted = true :=
          hfirst hall (by rw [isComment_cons, if_neg (by decide), decide_eq_true rfl])
        exact scanned_numberSign h hnext hcomment hnumbers hquoted
      | false =>
        by_cases hc : c = '\n'
        · subst hc
          obtain rfl : cs = [] := by
            cases cs with
            | nil => rfl
            | cons c' cs => simp at hline
          exact scanned_newline h hnext
        · have hquote : state = .strongEscape → c ≠ '\'' := fun hstate => by
            simpa using hescape hstate
          refine .cons hcomment hc (ih (tracked_next h hnext hcomment hquote hc) hquotes.2 hnumbers'
            ?_ ?_ ?_)
          · rintro rfl
            obtain ⟨rfl, rfl⟩ := LineState.next?_strongEscape hnext
            simpa [h.agrees.1] using hquotes.1
          · intro hall hcs
            rw [List.all_cons, Bool.and_eq_true] at hall
            have hstate := hfirst hall.2 (by rw [isComment_cons, if_pos hall.1, hcs])
            rw [LineState.next?_of_isQuoted hstate (isQuiet_of_isBlank hall.1)] at hnext
            exact Option.some.inj hnext ▸ hstate
          · cases cs with
            | nil => exact List.not_mem_nil
            | cons c' cs => exact fun hmem => hline (List.mem_cons_of_mem c hmem)

end Dotpath.EnvFile
