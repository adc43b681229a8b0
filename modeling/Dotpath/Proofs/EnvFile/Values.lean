import Dotpath.Proofs.EnvFile.Assignments
import Dotpath.Proofs.EnvFile.Lines

/-!
# Values of covered lines

A value is read by a scanner of its own. On a covered text it has the same quotes and escapes open
as marking, so it comes to no dollar sign where it would look up a name.

Results:
1. `valueFrom_of_covered`, `value_of_covered`: what names stand for does not matter to a value.
2. `covered_of_assigned?`: the text of a value stands by itself.
3. `entry_of_covered`, `entriesFrom_of_covered`: nor does it to the entries of covered lines.
-/

namespace Dotpath.EnvFile

/-! ## Values -/

namespace ValueState

variable {lookup : List Char → List Char} {state state' : ValueState} {c : Char}

/-- A name is opened by a dollar sign that is neither quoted nor escaped, and by nothing else. -/
theorem open?_next? (hopen : state.open? = none)
    (hdollar : c = '$' → state.strong = true ∨ state.escaped = true)
    (h : state.next? lookup c = some state') : state'.open? = none := by
  rw [next?] at h
  split at h
  · rw [escape?] at h
    grind [push]
  · next hescaped =>
    split at h
    · grind [push]
    · next hstrong =>
      have hc : c ≠ '$' := fun hc => by simp_all
      rw [hopen] at h
      obtain rfl := Option.some.inj h
      rw [plain, if_neg hc]
      grind [push]

theorem next?_congr {lookup' : List Char → List Char} (hopen : state.open? = none) :
    state.next? lookup' c = state.next? lookup c := by
  rw [next?, next?, hopen]

/-- Reading a value has the same quotes and escapes open as marking, until the value has ended, and
it has no name open. -/
structure Follows (state : ValueState) (m : MarkState) : Prop where
  closed : state.open? = none
  flags : state.ended = false →
    state.strong = m.strong ∧ state.weak = m.weak ∧ state.escaped = m.escaped

theorem follows_start : start.Follows .start :=
  ⟨rfl, fun _ => ⟨rfl, rfl, rfl⟩⟩

theorem Follows.next? {m : MarkState} (h : state.Follows m) (hended : state.ended = false)
    (hdollar : c = '$' → m.strong = true ∨ m.escaped = true) (hcomment : m.comment = false)
    (hcomment' : (m.next c).comment = false) (hnext : state.next? lookup c = some state') :
    state'.Follows (m.next c) := by
  obtain ⟨hstrong, hweak, hescaped⟩ := h.flags hended
  have hquoted : c = '$' → state.strong = true ∨ state.escaped = true := by
    rwa [hstrong, hescaped]
  refine ⟨open?_next? h.closed hquoted hnext, fun _ => ?_⟩
  rw [ValueState.next?] at hnext
  split at hnext
  · rw [escape?] at hnext
    grind [push, MarkState.next]
  · split at hnext
    · grind [push, MarkState.next]
    · next hstrong' =>
      have hc : c ≠ '$' := fun hc => by simp_all
      rw [h.closed] at hnext
      obtain rfl := Option.some.inj hnext
      rw [plain, if_neg hc]
      grind [push, MarkState.next]

theorem Follows.of_ended {m m' : MarkState} (h : state.Follows m) (hended : state.ended = true) :
    state.Follows m' :=
  ⟨h.closed, fun hnot => by simp [hended] at hnot⟩

end ValueState

section Lookups

variable {lookup lookup' : List Char → List Char} {input : List Char}

theorem closeValue_of_closed {state : ValueState} (h : state.open? = none) :
    closeValue lookup input state = closeValue lookup' input state := by
  simp [closeValue, ValueState.finish, h]

/-- While no name is open, one character reads the same whatever names stand for. -/
theorem valueFrom_cons {state : ValueState} (hopen : state.open? = none) {index : Nat} {c : Char}
    {cs : List Char}
    (hended : state.ended = true → valueFrom lookup input (index + 1) state cs
      = valueFrom lookup' input (index + 1) state cs)
    (hnext : ∀ state', state.ended = false → state.next? lookup c = some state' →
      valueFrom lookup input (index + 1) state' cs
        = valueFrom lookup' input (index + 1) state' cs) :
    valueFrom lookup input index state (c :: cs)
      = valueFrom lookup' input index state (c :: cs) := by
  have hsame : state.next? lookup' c = state.next? lookup c := ValueState.next?_congr hopen
  have hclose : closeValue lookup input state = closeValue lookup' input state :=
    closeValue_of_closed hopen
  rw [valueFrom, valueFrom, hsame]
  cases hstate : state.ended with
  | true => rw [if_pos rfl, if_pos rfl, hended hstate, hclose]
  | false =>
    cases hstep : state.next? lookup c with
    | none => rfl
    | some state' => exact hnext state' hstate hstep

theorem valueFrom_of_not_mem {state : ValueState} (hopen : state.open? = none) {index : Nat}
    {cs : List Char} (h : '$' ∉ cs) :
    valueFrom lookup input index state cs = valueFrom lookup' input index state cs := by
  induction cs generalizing index state with
  | nil => exact closeValue_of_closed hopen
  | cons c cs ih =>
    rw [List.mem_cons, not_or] at h
    refine valueFrom_cons hopen (fun _ => ih hopen h.2) fun state' _ hnext => ?_
    exact ih (ValueState.open?_next? hopen (fun hc => absurd hc.symm h.1) hnext) h.2

/-- After a space or a tab where nothing is open the value has ended. -/
theorem ValueState.ended_of_endsAt {state state' : ValueState} {m : MarkState} {c : Char}
    (h : state.Follows m) (hended : state.ended = false) (hends : m.endsAt c = true)
    (hnext : state.next? lookup c = some state') : state'.ended = true := by
  obtain ⟨hstrong, hweak, hescaped⟩ := h.flags hended
  simp only [MarkState.endsAt, Bool.and_eq_true, Bool.or_eq_true, decide_eq_true_eq,
    Bool.not_eq_true'] at hends
  obtain ⟨⟨⟨hblank, hstrong'⟩, hweak'⟩, hescaped'⟩ := hends
  rw [ValueState.next?, hescaped, hescaped', hstrong, hstrong', h.closed] at hnext
  obtain rfl := Option.some.inj hnext
  rw [ValueState.plain, hweak, hweak']
  rcases hblank with rfl | rfl <;> rfl

/-- A value reads the same whatever names stand for, from where nothing is open but what marking has
open. -/
theorem valueFrom_of_covered {state : ValueState} {m : MarkState} {ended : Bool}
    (h : state.Follows m) (hcomment : m.comment = false)
    (hended : ended = true → state.ended = true)
    {index : Nat} {cs : List Char} (hcs : Covered ended m cs) (hsettled : Settled m cs) :
    valueFrom lookup input index state cs = valueFrom lookup' input index state cs := by
  induction cs generalizing index state m ended with
  | nil => exact closeValue_of_closed h.closed
  | cons c cs ih =>
    -- There is no dollar sign left, or a comment is not read, or marking has the same quotes open.
    rcases hcs with hcs | ⟨hend, rfl⟩ | ⟨hcomment', hcs⟩
    · exact valueFrom_of_not_mem h.closed hcs
    · rw [valueFrom, valueFrom, if_pos (hended hend), if_pos (hended hend)]
      exact closeValue_of_closed h.closed
    · have hdollar (hc : c = '$') := quoted_of_isOpen hcomment (hsettled.1 hc)
      refine valueFrom_cons h.closed
        (fun hstate => ih (h.of_ended hstate) hcomment' (fun _ => hstate) hcs hsettled.2)
        fun state' hstate hnext => ?_
      exact ih (h.next? hstate hdollar hcomment hcomment' hnext) hcomment'
        (fun hends => ValueState.ended_of_endsAt h hstate hends hnext) hcs hsettled.2

theorem value_of_covered (h : Covered false .start input) (hsettled : Settled .start input) :
    value lookup input = value lookup' input := by
  have hended : false = true → ValueState.start.ended = true := nofun
  exact valueFrom_of_covered ValueState.follows_start rfl hended h hsettled

/-! ## Entries -/

theorem after_of_isQuiet {m : MarkState} (hplain : m.IsPlain) (hcomment : m.comment = false)
    {text : List Char} (h : ∀ c ∈ text, isQuiet c = true) :
    (m.after text).IsPlain ∧ (m.after text).comment = false := by
  induction text generalizing m with
  | nil => exact ⟨hplain, hcomment⟩
  | cons c cs ih =>
    obtain ⟨hc, hcs⟩ := List.forall_mem_cons.1 h
    rw [MarkState.after_cons, MarkState.next_of_isQuiet hplain hcomment hc]
    exact ih ⟨hplain.1, hplain.2, hplain.3⟩ hcomment hcs

/-- Marking reads the text from `m` as it does from the start. -/
structure Restarts (m : MarkState) (text : List Char) : Prop where
  plain : m.IsPlain
  comment : m.comment = false
  head : text.head? ≠ some '#'

namespace Restarts

variable {m : MarkState} {text : List Char}

theorem isOpen (h : Restarts m text) : m.isOpen = true := by
  simp [MarkState.isOpen, h.comment, h.plain.strong, h.plain.escaped]

/-- What came right before is of no interest to a character that is no number sign. -/
theorem next {c : Char} {cs : List Char} (h : Restarts m (c :: cs)) :
    m.next c = MarkState.start.next c := by
  have hc : c ≠ '#' := fun hc => h.head (congrArg some hc)
  obtain ⟨strong, weak, escaped, comment, afterBlank⟩ := m
  obtain ⟨⟨rfl, rfl, rfl⟩, rfl, -⟩ := h
  simp only [MarkState.next, MarkState.start, hc]
  split_ifs <;> simp_all

theorem covered (h : Restarts m text) : Covered false m text ↔ Covered false .start text := by
  cases text with
  | nil => exact Iff.rfl
  | cons c cs =>
    have hends : m.endsAt c = MarkState.start.endsAt c := by
      simp [MarkState.endsAt, MarkState.start, h.plain.strong, h.plain.weak, h.plain.escaped]
    rw [Covered, Covered, h.next, hends]

theorem settled (h : Restarts m text) : Settled m text ↔ Settled .start text := by
  cases text with
  | nil => exact Iff.rfl
  | cons c cs => rw [Settled, Settled, h.next, h.isOpen]; rfl

theorem markFrom (h : Restarts m text) : markFrom m text = markAll text := by
  cases text with
  | nil => rfl
  | cons c cs =>
    have hc : m.markChar c = MarkState.start.markChar c := by
      rw [MarkState.markChar, h.isOpen]
      rfl
    rw [markAll, markFrom_cons, markFrom_cons, h.next, hc]

end Restarts

/-- The text of a value is read as if it stood by itself, since it does not start with a number
sign. -/
theorem exists_of_assigned?_start {line : List Char} {key : String}
    (h : assigned? line = some (key, input)) :
    ∃ front tail, line = front ++ (input ++ tail) ∧ '#' ∉ front ∧
      Restarts (MarkState.start.after front) input := by
  obtain ⟨front, tail, hline, hquiet, hhead⟩ := exists_of_assigned? h
  obtain ⟨hplain, hcomment⟩ := after_of_isQuiet (m := .start) ⟨rfl, rfl, rfl⟩ rfl hquiet
  exact ⟨front, tail, hline, fun hmem => absurd (hquiet '#' hmem) (by decide),
    hplain, hcomment, hhead⟩

/-- What a covered line assigns is covered too. -/
theorem covered_of_assigned? {line : List Char} {key : String}
    (h : assigned? line = some (key, input)) (hline : Covered false .start line) :
    Covered false .start input := by
  obtain ⟨front, tail, rfl, hnumber, hrestarts⟩ := exists_of_assigned?_start h
  obtain ⟨ended, hcovered⟩ := hline.right hnumber
  exact hrestarts.covered.1 (hcovered.left.of_head? hrestarts.head)

theorem settled_of_assigned? {line : List Char} {key : String}
    (h : assigned? line = some (key, input)) (hline : Settled .start line) :
    Settled .start input := by
  obtain ⟨front, tail, rfl, -, hrestarts⟩ := exists_of_assigned?_start h
  exact hrestarts.settled.1 (settled_append.1 (settled_append.1 hline).2).1

/-- The entry of a covered line does not depend on what names stand for. -/
theorem entry_of_covered {line : List Char} (h : Covered false .start line)
    (hsettled : Settled .start line) : entry lookup line = entry lookup' line := by
  cases hline : assigned? line with
  | none =>
    rcases entry_of_unassigned hline with hentry | ⟨index, hentry⟩
    · rw [hentry, hentry]
    · rw [hentry, hentry]
  | some assignment =>
    obtain ⟨key, input⟩ := assignment
    rw [entry_of_assigned? hline, entry_of_assigned? hline,
      value_of_covered (covered_of_assigned? hline h) (settled_of_assigned? hline hsettled)]

end Lookups

/-- Entries of covered lines do not depend on the process. -/
theorem entriesFrom_of_covered (process process' : Env) {earlier : List (String × List Char)}
    {lines : List (Except LineFault (List Char))}
    (h : ∀ line, .ok line ∈ lines → Covered false .start line ∧ Settled .start line) :
    entriesFrom process earlier lines = entriesFrom process' earlier lines := by
  induction lines generalizing earlier with
  | nil => rfl
  | cons first rest ih =>
    have hrest (line : List Char) (hline : .ok line ∈ rest) :=
      h line (List.mem_cons_of_mem first hline)
    cases first with
    | error fault => rfl
    | ok line =>
      have hentry : entry (EnvFile.lookup process earlier) line
          = entry (EnvFile.lookup process' earlier) line := by
        obtain ⟨hcovered, hsettled⟩ := h line List.mem_cons_self
        exact entry_of_covered hcovered hsettled
      rw [entriesFrom, entriesFrom, hentry]
      split
      · rfl
      · exact ih hrest
      · exact ih hrest

end Dotpath.EnvFile
