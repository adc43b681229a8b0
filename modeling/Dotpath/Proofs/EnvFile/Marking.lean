import Dotpath.EnvFile.Line
import Dotpath.EnvFile.Substitution

/-!
# Marked texts

After marking, a dollar sign is left only where no substitution can start. Marking changes dollar
signs and nothing else, so that a text and its marked form have the same lines, quotes and comments.

Results:
1. `markFrom_append`, `exists_of_markFrom_append`: a text can be marked piece by piece.
2. `settled_markFrom`, `mem_markFrom_iff`: the dollar signs that are left, and the marks.
3. `physicalLines_markFrom`, `scan_markFrom`, `stripEnd_markFrom`: marking and taking lines apart.
-/

namespace Dotpath.EnvFile

/-! ## States of marking -/

namespace MarkState

/-- The state after more text that is kept. -/
def after (state : MarkState) (text : List Char) : MarkState :=
  text.foldl next state

@[simp] theorem after_nil (state : MarkState) : state.after [] = state := rfl

@[simp] theorem after_cons (state : MarkState) (c : Char) (cs : List Char) :
    state.after (c :: cs) = (state.next c).after cs := rfl

theorem after_append (state : MarkState) (text more : List Char) :
    state.after (text ++ more) = (state.after text).after more :=
  List.foldl_append

theorem afterBlank_next (state : MarkState) (c : Char) :
    (state.next c).afterBlank = Text.isBlank c := rfl

/-- A mark means no more for what follows than the dollar sign that it stands for. -/
theorem next_mark (state : MarkState) : state.next mark = state.next '$' := by
  obtain ⟨strong, weak, escaped, comment, afterBlank⟩ := state
  revert strong weak escaped comment afterBlank
  decide

theorem next_dollar_of_isOpen {state : MarkState} (h : state.isOpen = true) :
    state.next '$' = { state with afterBlank := false } := by
  obtain ⟨strong, weak, escaped, comment, afterBlank⟩ := state
  revert strong weak escaped comment afterBlank
  decide

end MarkState

/-! ## Marking piece by piece -/

/-- The marked form of a character. -/
def MarkState.markChar (state : MarkState) (c : Char) : Char :=
  if c = '$' && state.isOpen then mark else c

namespace MarkState

variable {state : MarkState} {c : Char}

theorem markChar_of_ne (h : c ≠ '$') : state.markChar c = c := by
  simp [markChar, h]

theorem markChar_of_not_isOpen (h : state.isOpen = false) : state.markChar c = c := by
  simp [markChar, h]

/-- A dollar sign is left where no substitution can start. -/
theorem isOpen_of_markChar (h : state.markChar c = '$') : state.isOpen = false := by
  rw [markChar] at h
  split at h
  · exact absurd h (by decide)
  · next hnot => simpa [h] using hnot

/-- Marking does not change the outcome of a test that treats marks and dollar signs alike. -/
theorem test_markChar {α : Type} (test : Char → α) (htest : test mark = test '$') :
    test (state.markChar c) = test c := by
  rw [markChar]
  split
  · next h =>
    simp only [Bool.and_eq_true, decide_eq_true_eq] at h
    rw [h.1, htest]
  · rfl

theorem isBlank_markChar : Text.isBlank (state.markChar c) = Text.isBlank c :=
  test_markChar Text.isBlank (by decide)

theorem markChar_eq_iff (state : MarkState) (c : Char) {special : Char} (hdollar : special ≠ '$')
    (hmark : special ≠ mark) : state.markChar c = special ↔ c = special := by
  have halike : (mark == special) = ('$' == special) := by
    rw [beq_false_of_ne hmark.symm, beq_false_of_ne hdollar.symm]
  have htest : (state.markChar c == special) = (c == special) :=
    test_markChar (· == special) halike
  simpa using Bool.eq_iff_iff.1 htest

theorem next_markChar (other : MarkState) : other.next (state.markChar c) = other.next c :=
  test_markChar other.next other.next_mark

theorem next?_markChar (other : LineState) : other.next? (state.markChar c) = other.next? c :=
  test_markChar other.next? (by cases other <;> decide)

end MarkState

@[simp] theorem markFrom_nil (state : MarkState) : markFrom state [] = [] := rfl

theorem markFrom_cons (state : MarkState) (c : Char) (cs : List Char) :
    markFrom state (c :: cs) = state.markChar c :: markFrom (state.next c) cs := by
  rw [markFrom, MarkState.markChar]
  split
  · next h =>
    simp only [Bool.and_eq_true, decide_eq_true_eq] at h
    rw [h.1, MarkState.next_dollar_of_isOpen h.2]
  · rfl

theorem markFrom_append (state : MarkState) (text more : List Char) :
    markFrom state (text ++ more) = markFrom state text ++ markFrom (state.after text) more := by
  induction text generalizing state with
  | nil => rfl
  | cons c cs ih => rw [List.cons_append, markFrom_cons, markFrom_cons, ih]; rfl

theorem markFrom_of_not_mem {text : List Char} (h : '$' ∉ text) (state : MarkState) :
    markFrom state text = text := by
  induction text generalizing state with
  | nil => rfl
  | cons c cs ih =>
    rw [List.mem_cons, not_or] at h
    rw [markFrom_cons, MarkState.markChar_of_ne (Ne.symm h.1), ih h.2]

/-- Every dollar sign of a text that is read from `state` is one where no substitution starts. -/
def Settled (state : MarkState) : List Char → Prop
  | [] => True
  | c :: cs => (c = '$' → state.isOpen = false) ∧ Settled (state.next c) cs

theorem settled_append {state : MarkState} {text more : List Char} :
    Settled state (text ++ more) ↔ Settled state text ∧ Settled (state.after text) more := by
  induction text generalizing state with
  | nil => simp [Settled]
  | cons c cs ih => simp [Settled, ih, and_assoc]

theorem settled_markFrom (state : MarkState) (text : List Char) :
    Settled state (markFrom state text) := by
  induction text generalizing state with
  | nil => trivial
  | cons c cs ih =>
    rw [markFrom_cons]
    refine ⟨MarkState.isOpen_of_markChar, ?_⟩
    rw [MarkState.next_markChar]
    exact ih _

/-! ## Taking marks back -/

theorem not_mem_unmark (text : List Char) : mark ∉ unmark text := by
  intro h
  obtain ⟨c, -, hc⟩ := List.mem_map.1 h
  split at hc
  · exact absurd hc (by decide)
  · next hne => exact hne hc

section Marked

variable {state : MarkState} {text : List Char}

theorem unmark_markFrom (h : mark ∉ text) : unmark (markFrom state text) = text := by
  induction text generalizing state with
  | nil => rfl
  | cons c cs ih =>
    rw [List.mem_cons, not_or] at h
    rw [markFrom_cons, unmark, List.map_cons, ← unmark, ih h.2, MarkState.markChar]
    split
    · next hc =>
      simp only [Bool.and_eq_true, decide_eq_true_eq] at hc
      rw [if_pos rfl, hc.1]
    · rw [if_neg (Ne.symm h.1)]

/-- Marks stand where substitutions start. -/
theorem mem_markFrom_iff (h : mark ∉ text) :
    mark ∈ markFrom state text ↔
      ∃ front more, text = front ++ '$' :: more ∧ (state.after front).isOpen = true := by
  induction text generalizing state with
  | nil => simp
  | cons c cs ih =>
    rw [List.mem_cons, not_or] at h
    rw [markFrom_cons, List.mem_cons, ih h.2]
    constructor
    · rintro (hc | ⟨front, more, rfl, hopen⟩)
      · rw [MarkState.markChar] at hc
        split at hc
        · next hdollar =>
          simp only [Bool.and_eq_true, decide_eq_true_eq] at hdollar
          exact ⟨[], cs, by rw [hdollar.1, List.nil_append], hdollar.2⟩
        · exact absurd hc h.1
      · exact ⟨c :: front, more, rfl, hopen⟩
    · rintro ⟨front, more, hsplit, hopen⟩
      rcases List.cons_eq_append_iff.1 hsplit with ⟨rfl, hcons⟩ | ⟨front, rfl, rfl⟩
      · obtain ⟨rfl, rfl⟩ := List.cons.inj hcons
        rw [MarkState.after_nil] at hopen
        exact .inl (by simp [MarkState.markChar, hopen])
      · exact .inr ⟨front, more, rfl, hopen⟩

/-- What a marked text is made of, the text is made of. -/
theorem exists_of_markFrom_append {front more : List Char}
    (h : markFrom state text = front ++ more) :
    ∃ before after, text = before ++ after ∧ front = markFrom state before ∧
      more = markFrom (state.after before) after := by
  induction front generalizing state text with
  | nil => exact ⟨[], text, rfl, rfl, h.symm⟩
  | cons c front ih =>
    cases text with
    | nil => exact nomatch h
    | cons c' text =>
      rw [markFrom_cons, List.cons_append] at h
      obtain ⟨rfl, hcs⟩ := List.cons.inj h
      obtain ⟨before, after, rfl, rfl, rfl⟩ := ih hcs
      exact ⟨c' :: before, after, rfl, (markFrom_cons state c' before).symm, rfl⟩

theorem exists_of_infix_markFrom {line : List Char} (h : line <:+: markFrom state text) :
    ∃ before raw after, text = before ++ raw ++ after ∧
      line = markFrom (state.after before) raw := by
  obtain ⟨front, more, hsplit⟩ := h
  obtain ⟨whole, after, rfl, hwhole, -⟩ := exists_of_markFrom_append hsplit.symm
  obtain ⟨before, raw, rfl, -, hraw⟩ := exists_of_markFrom_append hwhole.symm
  exact ⟨before, raw, after, rfl, hraw⟩

end Marked

/-! ## Orderly texts -/

/-- No stretch in single quotes ends in a backslash. -/
def quotesEnd (state : MarkState) : List Char → Bool
  | [] => true
  | c :: cs =>
    !(state.strong && c = '\\' && cs.head? = some '\'') && quotesEnd (state.next c) cs

/-- What comes before a number sign, last character first, makes clear whether a comment starts:
nothing but blanks; or no blank at all at the end; or one that is no carriage return, behind a
character that is neither blank nor a backslash. -/
def introduces (before : List Char) : Bool :=
  before.all Text.isBlank || match before with
    | blank :: last :: _ =>
      !Text.isBlank blank || (blank ≠ '\r' && !Text.isBlank last && last ≠ '\\')
    | _ => true

/-- What comes before a number sign, last character first, ends with a space or a tab that is not
escaped, so that a value has ended there. -/
def endsValue : List Char → Bool
  | blank :: last :: _ => (blank = ' ' || blank = '\t') && last ≠ '\\'
  | _ => false

/-- A quote is open. -/
def LineState.isQuoted : LineState → Bool
  | strong | weak => true
  | _ => false

/-- The text closes the quotes that it opens, unless a comment comes first. -/
def closesQuotes (state : LineState) (text : List Char) : Bool :=
  match state.scan text with
  | .inl state => !state.isQuoted
  | .inr _ => true

/-- Where it is not clear whether a number sign starts a comment, it does not matter: behind it all
quotes are closed, and there is no dollar sign unless the value has ended. `before` is what comes
before the line's rest, last character first. -/
def numberSignsClear (before : List Char) : List Char → Bool
  | [] => true
  | c :: cs =>
    (c ≠ '#' || introduces before ||
        closesQuotes .complete cs && (endsValue before || !cs.contains '$')) &&
      numberSignsClear (c :: before) cs

/-- Quotes and comments of the text are plain to see. -/
structure Orderly (text : List Char) : Prop where
  quotes : quotesEnd .start text = true
  comments : ∀ line ∈ physicalLines text, numberSignsClear [] line = true

instance (text : List Char) : Decidable (Orderly text) :=
  decidable_of_iff (_ ∧ _) ⟨fun h => ⟨h.1, h.2⟩, fun h => ⟨h.quotes, h.comments⟩⟩

theorem quotesEnd_append {state : MarkState} {text more : List Char}
    (h : quotesEnd state (text ++ more) = true) :
    quotesEnd state text = true ∧ quotesEnd (state.after text) more = true := by
  induction text generalizing state with
  | nil => exact ⟨rfl, h⟩
  | cons c cs ih =>
    rw [List.cons_append, quotesEnd, Bool.and_eq_true] at h
    obtain ⟨hcs, hmore⟩ := ih h.2
    refine ⟨?_, hmore⟩
    rw [quotesEnd, hcs, Bool.and_true]
    cases cs with
    | nil => simp
    | cons c' cs => exact h.1

/-! ## Lines of a marked text -/

/-- Marks lines one after the other. -/
def markLines (state : MarkState) : List (List Char) → List (List Char)
  | [] => []
  | line :: lines => markFrom state line :: markLines (state.after line) lines

theorem physicalLines_markFrom (state : MarkState) (text : List Char) :
    physicalLines (markFrom state text) = markLines state (physicalLines text) := by
  induction text generalizing state with
  | nil => rfl
  | cons c cs ih =>
    rw [markFrom_cons, physicalLines, physicalLines, ih]
    by_cases hc : c = '\n'
    · subst hc
      rw [if_pos rfl, MarkState.markChar_of_ne (by decide), if_pos rfl, markLines, markFrom_cons,
        MarkState.markChar_of_ne (by decide)]
      rfl
    · rw [if_neg hc, if_neg (mt (MarkState.markChar_eq_iff state c (by decide) (by decide)).1 hc)]
      cases physicalLines cs with
      | nil => rw [markLines, markLines, markLines, markFrom_cons, markFrom_nil]
      | cons line lines => rw [markLines, markLines, markFrom_cons]; rfl

theorem isComment_cons (c : Char) (cs : List Char) :
    isComment (c :: cs) = if Text.isBlank c then isComment cs else c = '#' := by
  rw [isComment, List.dropWhile_cons]
  split
  · rfl
  · simp

theorem isComment_markFrom (state : MarkState) (line : List Char) :
    isComment (markFrom state line) = isComment line := by
  induction line generalizing state with
  | nil => rfl
  | cons c cs ih =>
    have hnumber := MarkState.markChar_eq_iff state c (by decide : '#' ≠ '$') (by decide)
    rw [markFrom_cons, isComment_cons, isComment_cons, MarkState.isBlank_markChar, ih]
    simp only [hnumber]

theorem scan_markFrom (state : LineState) (m : MarkState) (line : List Char) :
    state.scan (markFrom m line) = (state.scan line).map id (markFrom m) := by
  induction line generalizing state m with
  | nil => rfl
  | cons c cs ih =>
    rw [markFrom_cons, LineState.scan, LineState.scan, MarkState.next?_markChar]
    cases state.next? c with
    | none => rfl
    | some next =>
      dsimp only
      rw [ih]
      cases next.scan cs with
      | inl last => rfl
      | inr before => simp [markFrom_cons]

theorem stripEnd_concat (body : List Char) (last : Char) :
    stripEnd (body ++ [last]) =
      if last = '\n' then if body.getLast? = some '\r' then body.dropLast else body
      else body ++ [last] := by
  rw [stripEnd, List.reverse_append, List.reverse_singleton, List.singleton_append]
  split
  · next before h =>
    obtain ⟨rfl, hbody⟩ := List.cons.inj h
    obtain rfl : body = before.reverse ++ ['\r'] := by simpa using congrArg List.reverse hbody
    simp
  · next before hnot h =>
    obtain ⟨rfl, rfl⟩ := List.cons.inj h
    have hlast : body.getLast? ≠ some '\r' := by
      rw [List.getLast?_eq_head?_reverse]
      intro hhead
      obtain ⟨rest, hrest⟩ := List.head?_eq_some_iff.1 hhead
      exact hnot rest hrest
    rw [if_pos rfl, if_neg hlast, List.reverse_reverse]
  · next hnot =>
    rw [if_neg]
    rintro rfl
    exact hnot body.reverse rfl

theorem stripEnd_markFrom (state : MarkState) (line : List Char) :
    stripEnd (markFrom state line) = markFrom state (stripEnd line) := by
  rcases List.eq_nil_or_concat line with rfl | ⟨body, last, rfl⟩
  · rfl
  · have hlast := MarkState.markChar_eq_iff (state.after body) last
      (by decide : '\n' ≠ '$') (by decide)
    rw [List.concat_eq_append, markFrom_append, markFrom_cons, markFrom_nil, stripEnd_concat,
      stripEnd_concat]
    simp only [hlast]
    split
    · rcases List.eq_nil_or_concat body with rfl | ⟨front, before, rfl⟩
      · rfl
      · have hbefore := MarkState.markChar_eq_iff (state.after front) before
          (by decide : '\r' ≠ '$') (by decide)
        rw [List.concat_eq_append, markFrom_append, markFrom_cons, markFrom_nil]
        simp only [List.getLast?_concat, Option.some_inj, hbefore, List.dropLast_concat]
        split
        · rfl
        · rw [markFrom_append, markFrom_cons, markFrom_nil]
    · rw [markFrom_append, markFrom_cons, markFrom_nil]

end Dotpath.EnvFile
