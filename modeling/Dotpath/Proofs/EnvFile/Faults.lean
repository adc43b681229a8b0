import Dotpath.Proofs.EnvFile.Values

/-!
# Faults of reading

The line that a fault shows is a stretch of the text: a whole line, the value of one, or what is
left of the text where a quote stays open.

Results:
1. `infix_of_entry_error`: a fault in an entry shows a stretch of its line.
2. `infix_of_mem_lines`: a line is a stretch of the text, and so is one that is not closed.
3. `infix_of_fault`: what the fault of a text shows.
-/

namespace Dotpath.EnvFile

/-! ## Entries -/

section Entries

variable {lookup : List Char → List Char} {input : List Char} {fault : LineFault}

theorem line_of_closeValue_error {state : ValueState}
    (h : closeValue lookup input state = .error fault) : fault.line = input := by
  rw [closeValue] at h
  split at h
  · rw [← Except.error.inj h]
  · cases h

theorem line_of_valueFrom_error {index : Nat} {state : ValueState} {cs : List Char}
    (h : valueFrom lookup input index state cs = .error fault) : fault.line = input := by
  induction cs generalizing index state with
  | nil => exact line_of_closeValue_error h
  | cons c cs ih =>
    rw [valueFrom] at h
    split at h
    · split at h
      · exact ih h
      · split at h
        · exact line_of_closeValue_error h
        · rw [← Except.error.inj h]
    · split at h
      · exact ih h
      · rw [← Except.error.inj h]

theorem infix_of_entry_error {line : List Char} (h : entry lookup line = .error fault) :
    fault.line <:+: line := by
  cases hline : assigned? line with
  | none =>
    rcases entry_of_unassigned hline with hentry | ⟨index, hentry⟩
    · rw [hentry] at h
      exact nomatch h
    · rw [hentry] at h
      obtain rfl := Except.error.inj h
      exact List.infix_rfl
  | some assignment =>
    obtain ⟨key, input⟩ := assignment
    rw [entry_of_assigned? hline] at h
    cases hvalue : value lookup input with
    | ok found => simp [hvalue, Except.map] at h
    | error found =>
      rw [hvalue] at h
      obtain rfl := Except.error.inj h
      obtain ⟨front, tail, rfl, -, -⟩ := exists_of_assigned? hline
      rw [line_of_valueFrom_error hvalue]
      exact ⟨front, tail, List.append_assoc ..⟩

end Entries

/-! ## Lines -/

/-- The text of a line, or of the fault that stands in its place. -/
def shownLine : Except LineFault (List Char) → List Char
  | .ok line => line
  | .error fault => fault.line

theorem infix_of_mem_joinLines {pending : List Char} {state : LineState}
    {lines : List (List Char)} {found : Except LineFault (List Char)}
    (h : found ∈ joinLines pending state lines) :
    shownLine found <:+: pending ++ lines.flatten := by
  induction lines generalizing pending state with
  | nil =>
    rw [joinLines] at h
    split at h
    · exact absurd h List.not_mem_nil
    · rw [List.mem_singleton.1 h, List.flatten_nil, List.append_nil]
      exact List.infix_rfl
  | cons line rest ih =>
    rw [List.flatten_cons, ← List.append_assoc]
    have hrest (hmem : found ∈ joinLines [] .complete rest) :
        shownLine found <:+: pending ++ line ++ rest.flatten :=
      (ih hmem).trans (List.suffix_append _ _).isInfix
    rw [joinLines] at h
    split at h
    · rcases List.mem_cons.1 h with rfl | h
      · exact List.nil_infix
      · exact hrest h
    · split at h
      · next before hscan =>
        rcases List.mem_cons.1 h with rfl | h
        · obtain ⟨more, rfl⟩ := LineState.append_of_scan hscan
          exact ⟨[], more ++ rest.flatten, by simp [shownLine]⟩
        · exact hrest h
      · rcases List.mem_cons.1 h with rfl | h
        · obtain ⟨tail, htail⟩ := stripEnd_append (pending ++ line)
          refine ⟨[], tail ++ rest.flatten, ?_⟩
          rw [List.nil_append, ← List.append_assoc, shownLine, ← htail]
        · exact hrest h
      · exact ih h

theorem infix_of_mem_lines {text : List Char} {found : Except LineFault (List Char)}
    (h : found ∈ lines text) : shownLine found <:+: text := by
  have hshown := infix_of_mem_joinLines h
  rwa [List.nil_append, flatten_physicalLines] at hshown

/-! ## Texts -/

/-- Reading stops at a line that is not closed, or at one whose entry cannot be read. -/
theorem exists_line_of_fault {process : Env} {earlier : List (String × List Char)}
    {lines : List (Except LineFault (List Char))} {fault : LineFault}
    (h : (entriesFrom process earlier lines).fault = some fault) :
    ∃ found ∈ lines, fault.line <:+: shownLine found := by
  induction lines generalizing earlier with
  | nil => exact nomatch h
  | cons first rest ih =>
    have hrest {earlier : List (String × List Char)}
        (h : (entriesFrom process earlier rest).fault = some fault) :
        ∃ found ∈ first :: rest, fault.line <:+: shownLine found := by
      obtain ⟨found, hfound, hinfix⟩ := ih h
      exact ⟨found, List.mem_cons_of_mem first hfound, hinfix⟩
    cases first with
    | error found =>
      rw [entriesFrom] at h
      obtain rfl := Option.some.inj h
      exact ⟨_, List.mem_cons_self, List.infix_rfl⟩
    | ok line =>
      rw [entriesFrom] at h
      split at h
      · next hentry =>
        obtain rfl := Option.some.inj h
        exact ⟨_, List.mem_cons_self, infix_of_entry_error hentry⟩
      · exact hrest h
      · exact hrest h

theorem infix_of_fault {process : Env} {text : List Char} {fault : LineFault}
    (h : (read process text).fault = some fault) : fault.line <:+: text := by
  obtain ⟨found, hfound, hinfix⟩ := exists_line_of_fault h
  exact hinfix.trans (infix_of_mem_lines hfound)

end Dotpath.EnvFile
