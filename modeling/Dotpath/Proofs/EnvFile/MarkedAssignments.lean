import Dotpath.Proofs.EnvFile.Faults

/-!
# Assignments of a marked text

What a line assigns, and to which key, does not depend on which of its dollar signs are marked. So
the marked form of an orderly text has the assignments of the text, each with the text of its value
marked by itself.

Results:
1. `split_unmark`, `assigned?_unmark`: taking marks back and taking lines apart.
2. `assigned?_markFrom`: the assignment of a marked line.
3. `assignments_markAll`: the assignments of a marked text.
-/

namespace Dotpath.EnvFile

/-! ## Taking marks back -/

section Unmark

variable {test : Char → Bool} {cs : List Char}

theorem test_unmark (h : test mark = test '$') :
    (test ∘ fun c => if c = mark then '$' else c) = test := by
  funext c
  simp only [Function.comp]
  split
  · next hc => rw [hc, h]
  · rfl

theorem takeWhile_unmark (h : test mark = test '$') :
    (unmark cs).takeWhile test = unmark (cs.takeWhile test) := by
  rw [unmark, unmark, List.takeWhile_map, test_unmark h]

theorem dropWhile_unmark (h : test mark = test '$') :
    (unmark cs).dropWhile test = unmark (cs.dropWhile test) := by
  rw [unmark, unmark, List.dropWhile_map, test_unmark h]

theorem head?_any_unmark (h : test mark = test '$') :
    (unmark cs).head?.any test = cs.head?.any test := by
  cases cs with
  | nil => rfl
  | cons c cs => exact congrFun (test_unmark h) c

theorem unmark_of_not_mem (h : mark ∉ cs) : unmark cs = cs := by
  have hsame : ∀ c ∈ cs, (if c = mark then '$' else c) = id c :=
    fun c hc => if_neg fun hmark : c = mark => h (hmark ▸ hc)
  rw [unmark, List.map_congr_left hsame, List.map_id]

end Unmark

theorem skipBlanks_unmark (cs : List Char) : skipBlanks (unmark cs) = unmark (skipBlanks cs) :=
  dropWhile_unmark (by decide)

theorem trimEnd_unmark (cs : List Char) : Text.trimEnd (unmark cs) = unmark (Text.trimEnd cs) := by
  have hreverse (cs : List Char) : (unmark cs).reverse = unmark cs.reverse := List.map_reverse.symm
  rw [Text.trimEnd, Text.trimEnd, hreverse, dropWhile_unmark (by decide), hreverse]

theorem key?_unmark (cs : List Char) :
    key? (unmark cs) = (key? cs).map fun found => (found.1, unmark found.2) := by
  have hmark : isKeyChar mark = isKeyChar '$' := by decide
  have hkey : unmark (cs.takeWhile isKeyChar) = cs.takeWhile isKeyChar :=
    unmark_of_not_mem fun hmem => absurd (List.mem_takeWhile_imp hmem) (by decide)
  rw [key?, key?, head?_any_unmark (by decide), takeWhile_unmark hmark, hkey,
    dropWhile_unmark hmark]
  split <;> rfl

theorem equals?_of_ne {c : Char} (h : c ≠ '=') (cs : List Char) : equals? (c :: cs) = none := by
  rw [equals?.eq_def]
  split
  · next hcs => exact absurd (List.cons.inj hcs).1 h
  · rfl

theorem equals?_unmark (cs : List Char) : equals? (unmark cs) = (equals? cs).map unmark := by
  cases cs with
  | nil => rfl
  | cons c cs =>
    by_cases hc : c = '='
    · subst hc
      rfl
    · have hmarked : (if c = mark then '$' else c) ≠ '=' := by
        split
        · decide
        · exact hc
      rw [unmark, List.map_cons, equals?_of_ne hmarked, equals?_of_ne hc]
      rfl

theorem split_unmark (line : List Char) :
    split (unmark line)
      = ((split line).map fun found => (found.1, unmark found.2)).mapError unmark := by
  rw [split, split, key?_unmark]
  cases key? line with
  | none => rfl
  | some found =>
    obtain ⟨key, rest⟩ := found
    simp only [Option.map_some, split.orRest, bind, Except.bind, skipBlanks_unmark, equals?_unmark,
      key?_unmark]
    split
    · cases equals? (skipBlanks rest) with
      | some value => rfl
      | none =>
        cases key? (skipBlanks rest) with
        | none => rfl
        | some second =>
          obtain ⟨key, rest⟩ := second
          simp only [Option.map_none, Option.map_some, skipBlanks_unmark, equals?_unmark]
          cases equals? (skipBlanks rest) <;> rfl
    · cases equals? (skipBlanks rest) <;> rfl

theorem assigned?_unmark (line : List Char) :
    assigned? (unmark line) = (assigned? line).map fun found => (found.1, unmark found.2) := by
  have hhead (cs : List Char) : (unmark cs).head? = some '#' ↔ cs.head? = some '#' := by
    have hany : (unmark cs).head?.any (· == '#') = cs.head?.any (· == '#') :=
      head?_any_unmark (by decide)
    simpa [Option.any_eq_true] using Bool.eq_iff_iff.1 hany
  have hempty (cs : List Char) : (unmark cs).isEmpty = cs.isEmpty := List.isEmpty_map
  rw [assigned?, assigned?]
  dsimp only
  simp only [trimEnd_unmark, skipBlanks_unmark, hempty, hhead, split_unmark]
  split
  · rfl
  · cases split (skipBlanks (Text.trimEnd line)) with
    | error rest => rfl
    | ok found =>
      obtain ⟨key, rest⟩ := found
      simp only [Except.map, Except.mapError, skipBlanks_unmark, hhead, Option.map_some]
      split <;> rfl

/-! ## Marked lines -/

namespace MarkState

theorem after_markFrom (state other : MarkState) (text : List Char) :
    other.after (markFrom state text) = other.after text := by
  induction text generalizing state other with
  | nil => rfl
  | cons c cs ih => rw [markFrom_cons, after_cons, after_cons, next_markChar, ih]

end MarkState

theorem Restarts.of_markFrom {m : MarkState} {text : List Char}
    (h : Restarts m (EnvFile.markFrom m text)) : Restarts m text := by
  refine ⟨h.plain, h.comment, fun hhead => h.head ?_⟩
  cases text with
  | nil => exact nomatch hhead
  | cons c cs =>
    obtain rfl := Option.some.inj hhead
    rw [markFrom_cons, MarkState.markChar_of_ne (by decide), List.head?_cons]

theorem assigned?_markFrom {line : List Char} (h : mark ∉ line) :
    assigned? (markFrom .start line)
      = (assigned? line).map fun found => (found.1, markAll found.2) := by
  have hunmark : assigned? line
      = (assigned? (markFrom .start line)).map fun found => (found.1, unmark found.2) := by
    rw [← assigned?_unmark, unmark_markFrom h]
  rw [hunmark]
  cases hmarked : assigned? (markFrom .start line) with
  | none => rfl
  | some found =>
    obtain ⟨key, marked⟩ := found
    obtain ⟨front, tail, hline, -, hrestarts⟩ := exists_of_assigned?_start hmarked
    obtain ⟨before, rest, rfl, rfl, hrest⟩ := exists_of_markFrom_append hline
    obtain ⟨input, after, rfl, rfl, -⟩ := exists_of_markFrom_append hrest.symm
    have hinput : mark ∉ input := fun hmem => h (by simp [hmem])
    rw [MarkState.after_markFrom] at hrestarts
    have hrestarts' := hrestarts.of_markFrom
    dsimp only [Option.map_some]
    rw [unmark_markFrom hinput, hrestarts'.markFrom]

/-! ## Marked texts -/

theorem assignments_of_forall₂ {lines marked : List (Except LineFault (List Char))}
    (h : List.Forall₂ MarkedLine lines marked) (hmark : ∀ line, .ok line ∈ lines → mark ∉ line) :
    assignments marked = (assignments lines).map (fun found => (found.1, markAll found.2)) ∧
      ∀ found ∈ assignments lines, Covered false .start found.2 ∧ mark ∉ found.2 := by
  induction h with
  | nil => exact ⟨rfl, nofun⟩
  | cons hfirst _ ih =>
    obtain ⟨hrest, hcovered⟩ := ih fun line hline => hmark line (List.mem_cons_of_mem _ hline)
    cases hfirst with
    | fault => exact ⟨hrest, hcovered⟩
    | @line line hline =>
      have hnot := hmark line List.mem_cons_self
      have hmarked := assigned?_markFrom hnot
      rw [assignments, assignments, hmarked]
      cases hfound : assigned? line with
      | none => exact ⟨hrest, hcovered⟩
      | some found =>
        refine ⟨congrArg _ hrest, List.forall_mem_cons.2 ⟨⟨covered_of_assigned? hfound hline, ?_⟩,
          hcovered⟩⟩
        obtain ⟨front, tail, rfl, -, -⟩ := exists_of_assigned? hfound
        exact fun hmem => hnot (by simp [hmem])

/-- The assignments of a marked text are those of the text, if that is orderly. -/
theorem assignments_markAll {text : List Char} (h : Orderly text) (hmark : mark ∉ text) :
    assignments (lines (markAll text))
        = (assignments (lines text)).map (fun found => (found.1, markAll found.2)) ∧
      ∀ found ∈ assignments (lines text), Covered false .start found.2 ∧ mark ∉ found.2 :=
  assignments_of_forall₂ (markedLine_lines h) fun _ hline hmem =>
    hmark ((infix_of_mem_lines hline).subset hmem)

end Dotpath.EnvFile
