import Dotpath.EnvFile.Entry
import Dotpath.Proofs.EnvFile.Scanning
import Dotpath.Proofs.FirstFault
import Mathlib.Data.List.TakeWhile

/-!
# Assignments

A line that is not empty, no comment and not faulty assigns a value to a key. Which key that is, and
where the text of the value stands, can be told from the line alone; what the text is read to is
another matter.

Results:
1. `valueFrom_eq_ok`, `run?_append`: a value is read by running over its text, piece by piece.
2. `exists_of_assigned?`, `entry_of_assigned?`, `entry_of_unassigned`: what a line assigns.
3. `exists_entries`: the entries of a text without faults are read from its assignments.
-/

namespace Dotpath.EnvFile

/-! ## Running over a value -/

namespace ValueState

/-- The state after more text. Once the value has ended it stays as it is. -/
def run? (lookup : List Char → List Char) (state : ValueState) : List Char → Option ValueState
  | [] => some state
  | c :: cs =>
    if state.ended then
      if c = ' ' || c = '\t' then run? lookup state cs
      else if c = '#' then some state
      else none
    else match state.next? lookup c with
      | some state => run? lookup state cs
      | none => none

variable {lookup : List Char → List Char} {state last : ValueState}

theorem run?_of_next? (hended : state.ended = false) (c : Char) (cs : List Char) :
    state.run? lookup (c :: cs) = (state.next? lookup c).bind (run? lookup · cs) := by
  rw [run?, hended]
  cases state.next? lookup c <;> rfl

theorem run?_of_ended (hended : state.ended = true) {cs : List Char}
    (h : state.run? lookup cs = some last) : last = state := by
  induction cs with
  | nil => exact (Option.some.inj h).symm
  | cons c cs ih =>
    rw [run?, if_pos hended] at h
    split at h
    · exact ih h
    · split at h
      · exact (Option.some.inj h).symm
      · exact nomatch h

/-- Where a value has not ended, reading goes on from what is known there. -/
theorem run?_append {middle : ValueState} {front : List Char}
    (h : state.run? lookup front = some middle) (hended : middle.ended = false)
    (more : List Char) : state.run? lookup (front ++ more) = middle.run? lookup more := by
  induction front generalizing state with
  | nil =>
    obtain rfl := Option.some.inj h
    rfl
  | cons c cs ih =>
    cases hstate : state.ended with
    | true =>
      rw [run?_of_ended hstate h, hstate] at hended
      exact nomatch hended
    | false =>
      rw [run?_of_next? hstate] at h
      obtain ⟨next, hnext, hrest⟩ := Option.bind_eq_some_iff.1 h
      rw [List.cons_append, run?_of_next? hstate, hnext, Option.bind_some, ih hrest]

/-- Nothing that has been read is taken back. -/
theorem output_of_next? {state' : ValueState} {c : Char} (h : state.next? lookup c = some state') :
    state.output <+: state'.output := by
  rw [next?] at h
  split at h
  · grind [escape?, push]
  · split at h
    · grind [push]
    · split at h
      · grind [substitute, push]
      · grind [plain, push]

theorem output_of_run? {cs : List Char} (h : state.run? lookup cs = some last) :
    state.output <+: last.output := by
  induction cs generalizing state with
  | nil => exact Option.some.inj h ▸ List.prefix_rfl
  | cons c cs ih =>
    cases hstate : state.ended with
    | true => exact run?_of_ended hstate h ▸ List.prefix_rfl
    | false =>
      rw [run?_of_next? hstate] at h
      obtain ⟨next, hnext, hrest⟩ := Option.bind_eq_some_iff.1 h
      exact (output_of_next? hnext).trans (ih hrest)

theorem output_finish (lookup : List Char → List Char) (state : ValueState) :
    state.output <+: state.finish lookup := by
  rw [finish]
  split
  · exact List.prefix_append _ _
  · exact List.prefix_rfl

end ValueState

section Values

variable {lookup : List Char → List Char} {input : List Char} {value : List Char}

theorem closeValue_eq_ok {state : ValueState} :
    closeValue lookup input state = .ok value
      ↔ state.isOpen = false ∧ state.finish lookup = value := by
  rw [closeValue]
  cases state.isOpen <;> simp

theorem valueFrom_eq_ok {index : Nat} {state : ValueState} {cs : List Char} :
    valueFrom lookup input index state cs = .ok value
      ↔ ∃ last, state.run? lookup cs = some last ∧ last.isOpen = false ∧
        last.finish lookup = value := by
  induction cs generalizing index state with
  | nil => simp [valueFrom, ValueState.run?, closeValue_eq_ok]
  | cons c cs ih =>
    rw [valueFrom, ValueState.run?]
    split
    · split
      · exact ih
      · split
        · simp [closeValue_eq_ok]
        · simp
    · cases state.next? lookup c with
      | none => simp
      | some next => exact ih

end Values

/-! ## What a line assigns -/

theorem isQuiet_of_isKeyChar {c : Char} (h : isKeyChar c = true) : isQuiet c = true :=
  isQuiet_of_test h (by decide)

/-- All that comes before the rest of a line is quiet. -/
def QuietUpTo (line rest : List Char) : Prop :=
  ∃ front, line = front ++ rest ∧ ∀ c ∈ front, isQuiet c = true

theorem QuietUpTo.trans {line middle rest : List Char} (h : QuietUpTo line middle)
    (h' : QuietUpTo middle rest) : QuietUpTo line rest := by
  obtain ⟨front, rfl, hfront⟩ := h
  obtain ⟨front', rfl, hfront'⟩ := h'
  exact ⟨front ++ front', (List.append_assoc ..).symm,
    List.forall_mem_append.2 ⟨hfront, hfront'⟩⟩

theorem quietUpTo_skipBlanks (cs : List Char) : QuietUpTo cs (skipBlanks cs) :=
  ⟨cs.takeWhile Text.isBlank, List.takeWhile_append_dropWhile.symm,
    fun _ hc => isQuiet_of_isBlank (List.mem_takeWhile_imp hc)⟩

theorem quietUpTo_key? {cs key rest : List Char} (h : key? cs = some (key, rest)) :
    QuietUpTo cs rest := by
  rw [key?] at h
  split at h
  · obtain ⟨rfl, rfl⟩ := Prod.mk.inj (Option.some.inj h)
    exact ⟨cs.takeWhile isKeyChar, List.takeWhile_append_dropWhile.symm,
      fun _ hc => isQuiet_of_isKeyChar (List.mem_takeWhile_imp hc)⟩
  · exact nomatch h

theorem quietUpTo_equals? {cs rest : List Char} (h : equals? cs = some rest) :
    QuietUpTo cs rest := by
  rw [equals?.eq_def] at h
  split at h
  · obtain rfl := Option.some.inj h
    exact ⟨['='], rfl, by simp [isQuiet]⟩
  · cases h

theorem orRest_eq_ok {α : Type} {rest : List Char} {found : Option α} {value : α} :
    split.orRest rest found = .ok value ↔ found = some value := by
  cases found <;> simp [split.orRest]

theorem quietUpTo_split {line key rest : List Char} (h : split line = .ok (key, rest)) :
    QuietUpTo line rest := by
  rw [split] at h
  obtain ⟨⟨first, afterFirst⟩, hfirst, h⟩ := bind_eq_ok.1 h
  refine (quietUpTo_key? (orRest_eq_ok.1 hfirst)).trans ((quietUpTo_skipBlanks _).trans ?_)
  dsimp only at h
  split at h
  · split at h
    · next hequals =>
      obtain ⟨-, rfl⟩ := Prod.mk.inj (Except.ok.inj h)
      exact quietUpTo_equals? hequals
    · obtain ⟨⟨second, afterSecond⟩, hsecond, h⟩ := bind_eq_ok.1 h
      obtain ⟨found, hfound, h⟩ := bind_eq_ok.1 h
      obtain ⟨-, rfl⟩ := Prod.mk.inj (Except.ok.inj h)
      exact (quietUpTo_key? (orRest_eq_ok.1 hsecond)).trans
        ((quietUpTo_skipBlanks _).trans (quietUpTo_equals? (orRest_eq_ok.1 hfound)))
  · obtain ⟨found, hfound, h⟩ := bind_eq_ok.1 h
    obtain ⟨-, rfl⟩ := Prod.mk.inj (Except.ok.inj h)
    exact quietUpTo_equals? (orRest_eq_ok.1 hfound)

theorem trimEnd_append (cs : List Char) : ∃ tail, cs = Text.trimEnd cs ++ tail := by
  refine ⟨(cs.reverse.takeWhile Text.isBlank).reverse, ?_⟩
  rw [Text.trimEnd, ← List.reverse_append, List.takeWhile_append_dropWhile, List.reverse_reverse]

/-- The key that a line assigns to, and the text of the value. A comment right behind the equals
sign leaves no text. -/
def assigned? (line : List Char) : Option (String × List Char) :=
  let text := skipBlanks (Text.trimEnd line)
  if text.isEmpty || text.head? = some '#' then none
  else match split text with
    | .error _ => none
    | .ok (key, rest) =>
      let input := skipBlanks rest
      some (.ofList key, if input.head? = some '#' then [] else input)

/-- The text of a value is a stretch of its line behind quiet characters. -/
theorem exists_of_assigned? {line : List Char} {key : String} {input : List Char}
    (h : assigned? line = some (key, input)) :
    ∃ front tail, line = front ++ (input ++ tail) ∧ (∀ c ∈ front, isQuiet c = true) ∧
      input.head? ≠ some '#' := by
  rw [assigned?] at h
  dsimp only at h
  split at h
  · exact nomatch h
  · split at h
    · exact nomatch h
    · next key rest hsplit =>
      obtain ⟨-, hinput⟩ := Prod.mk.inj (Option.some.inj h)
      obtain ⟨front, hfront, hquiet⟩ := (quietUpTo_skipBlanks (Text.trimEnd line)).trans
        ((quietUpTo_split hsplit).trans (quietUpTo_skipBlanks rest))
      obtain ⟨tail, htail⟩ := trimEnd_append line
      rw [hfront, List.append_assoc] at htail
      split at hinput
      · subst hinput
        exact ⟨front, _, htail, hquiet, nofun⟩
      · next hhead =>
        subst hinput
        exact ⟨front, tail, htail, hquiet, hhead⟩

theorem entry_of_assigned? {line : List Char} {key : String} {input : List Char}
    (h : assigned? line = some (key, input)) (lookup : List Char → List Char) :
    entry lookup line = (value lookup input).map fun value => some (key, value) := by
  rw [assigned?] at h
  rw [entry]
  dsimp only at h ⊢
  by_cases hline : ((skipBlanks (Text.trimEnd line)).isEmpty ||
      (skipBlanks (Text.trimEnd line)).head? = some '#') = true
  · rw [if_pos hline] at h
    exact nomatch h
  · rw [if_neg hline] at h ⊢
    cases hsplit : split (skipBlanks (Text.trimEnd line)) with
    | error rest =>
      rw [hsplit] at h
      exact nomatch h
    | ok found =>
      obtain ⟨key, rest⟩ := found
      rw [hsplit] at h
      obtain ⟨rfl, hinput⟩ := Prod.mk.inj (Option.some.inj h)
      dsimp only
      by_cases hhead : (skipBlanks rest).head? = some '#'
      · rw [if_pos hhead] at hinput
        subst hinput
        rw [if_pos (by simp [hhead])]
        rfl
      · rw [if_neg hhead] at hinput
        subst hinput
        cases hrest : skipBlanks rest with
        | nil => rfl
        | cons c cs =>
          rw [hrest] at hhead
          rw [if_neg (by simpa using hhead)]

/-- A line that assigns nothing has no entry, or is faulty as a whole. -/
theorem entry_of_unassigned {line : List Char} (h : assigned? line = none) :
    (∀ lookup, entry lookup line = .ok none) ∨
      ∃ index, ∀ lookup, entry lookup line = .error ⟨line, index⟩ := by
  rw [assigned?] at h
  dsimp only at h
  split at h
  · next hline => exact .inl fun lookup => by rw [entry, if_pos hline]
  · next hline =>
    split at h
    · next rest hsplit =>
      refine .inr ⟨Text.byteLength (Text.trimEnd line) - Text.byteLength rest, fun lookup => ?_⟩
      rw [entry]
      dsimp only
      rw [if_neg hline, hsplit]
    · exact nomatch h

/-! ## Assignments and entries -/

/-- The assignments of lines. -/
def assignments : List (Except LineFault (List Char)) → List (String × List Char)
  | [] => []
  | .ok line :: rest => (assigned? line).toList ++ assignments rest
  | .error _ :: rest => assignments rest

/-- The entry has the key of the assignment, and its value is what the text can be read to. -/
def IsRead (assignment entry : String × List Char) : Prop :=
  entry.1 = assignment.1 ∧ ∃ lookup, value lookup assignment.2 = .ok entry.2

theorem keys_of_isRead {assigned entries : List (String × List Char)}
    (h : List.Forall₂ IsRead assigned entries) : entries.map (·.1) = assigned.map (·.1) := by
  induction h with
  | nil => rfl
  | cons hread _ ih => rw [List.map_cons, List.map_cons, hread.1, ih]

theorem exists_entries {process : Env} {earlier : List (String × List Char)}
    {lines : List (Except LineFault (List Char))}
    (h : (entriesFrom process earlier lines).fault = none) :
    ∃ entries, (entriesFrom process earlier lines).entries = earlier.reverse ++ entries ∧
      List.Forall₂ IsRead (assignments lines) entries := by
  induction lines generalizing earlier with
  | nil => exact ⟨[], (List.append_nil _).symm, .nil⟩
  | cons first rest ih =>
    cases first with
    | error fault => exact nomatch h
    | ok line =>
      rw [entriesFrom] at h ⊢
      cases hline : assigned? line with
      | none =>
        rw [assignments, hline, Option.toList_none, List.nil_append]
        rcases entry_of_unassigned hline with hentry | ⟨index, hentry⟩
        · rw [hentry] at h ⊢
          exact ih h
        · rw [hentry] at h
          exact nomatch h
      | some assignment =>
        obtain ⟨key, input⟩ := assignment
        rw [assignments, hline, Option.toList_some, List.singleton_append]
        rw [entry_of_assigned? hline] at h ⊢
        cases hvalue : value (lookup process earlier) input with
        | error fault => simp [hvalue, Except.map] at h
        | ok found =>
          rw [hvalue] at h
          obtain ⟨entries, hentries, hread⟩ := ih h
          refine ⟨(key, found) :: entries, ?_, .cons ⟨rfl, _, hvalue⟩ hread⟩
          simpa [Except.map] using hentries

end Dotpath.EnvFile
