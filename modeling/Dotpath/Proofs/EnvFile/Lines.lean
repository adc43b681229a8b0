import Dotpath.Proofs.EnvFile.Scanning
import Dotpath.Proofs.FirstFault

/-!
# Lines of orderly texts

Every line of an orderly text starts where marking has nothing open but quotes, and a line that has
been joined from several starts where it has nothing open at all. So an orderly text can be marked
line by line, and marking a line meets no comment as long as it matters.

Results:
1. `Joining.covered_of_inr`, `Joining.covered_of_complete`, `Joining.append`: one more physical
   line.
2. `markedLine_lines`: the lines of an orderly text and those of its marked form.
-/

namespace Dotpath.EnvFile

/-! ## Joined lines -/

theorem physicalLines_eq_cons {text line : List Char} {rest : List (List Char)}
    (h : physicalLines text = line :: rest) :
    ∃ more, text = line ++ more ∧ physicalLines more = rest ∧ '\n' ∉ line.dropLast ∧
      (rest ≠ [] → EndsLine line) := by
  induction text generalizing line rest with
  | nil => exact nomatch h
  | cons c cs ih =>
    rw [physicalLines] at h
    split at h
    · next hc =>
      obtain ⟨rfl, rfl⟩ := List.cons.inj h
      exact ⟨cs, rfl, rfl, List.not_mem_nil, fun _ => ⟨[], List.not_mem_nil, by rw [hc]; rfl⟩⟩
    · next hc =>
      split at h
      · next hcs =>
        obtain ⟨rfl, rfl⟩ := List.cons.inj h
        exact ⟨cs, rfl, hcs, List.not_mem_nil, fun hne => absurd rfl hne⟩
      · next first others hcs =>
        obtain ⟨rfl, rfl⟩ := List.cons.inj h
        obtain ⟨more, rfl, hmore, hline, hend⟩ := ih hcs
        refine ⟨more, rfl, hmore, ?_, fun hne => ?_⟩
        · cases first with
          | nil => exact List.not_mem_nil
          | cons c' cs' => exact List.not_mem_cons_of_ne_of_not_mem (Ne.symm hc) hline
        · obtain ⟨body, hbody, rfl⟩ := hend hne
          exact ⟨c :: body, List.not_mem_cons_of_ne_of_not_mem (Ne.symm hc) hbody, rfl⟩

theorem flatten_physicalLines (text : List Char) : (physicalLines text).flatten = text := by
  induction text with
  | nil => rfl
  | cons c cs ih =>
    rw [physicalLines]
    split
    · rw [List.flatten_cons, ih, List.singleton_append]
    · split
      · next hlines => simpa [hlines] using ih
      · next line lines hlines => simpa [hlines] using ih

theorem stripEnd_append (line : List Char) : ∃ tail, line = stripEnd line ++ tail := by
  have hline := line.reverse_reverse
  unfold stripEnd
  split
  · next before h =>
    rw [h] at hline
    exact ⟨['\r', '\n'], by simp [← hline]⟩
  · next before h =>
    rw [h] at hline
    exact ⟨['\n'], by simp [← hline]⟩
  · exact ⟨[], (List.append_nil line).symm⟩

theorem isComment_append {text : List Char} (h : text.all Text.isBlank = false)
    (more : List Char) : isComment (text ++ more) = isComment text := by
  induction text with
  | nil => exact nomatch h
  | cons c cs ih =>
    rw [List.cons_append, isComment_cons, isComment_cons]
    split
    · next hc => exact ih (by simpa [hc] using h)
    · rfl

theorem next_start_of_isBlank {c : Char} (h : Text.isBlank c = true) :
    MarkState.start.next c = .start := by
  rw [MarkState.next_of_isQuiet ⟨rfl, rfl, rfl⟩ rfl (isQuiet_of_isBlank h), h]
  rfl

theorem after_start_of_all_isBlank {text : List Char} (h : text.all Text.isBlank = true) :
    MarkState.start.after text = .start := by
  induction text with
  | nil => rfl
  | cons c cs ih =>
    rw [List.all_cons, Bool.and_eq_true] at h
    rw [MarkState.after_cons, next_start_of_isBlank h.1, ih h.2]

theorem after_start_of_isComment {line : List Char} (h : isComment line = true)
    (hend : EndsLine line) : MarkState.start.after line = .start := by
  induction line with
  | nil => exact absurd hend not_endsLine_nil
  | cons c cs ih =>
    rw [isComment_cons] at h
    split at h
    · next hblank =>
      rw [MarkState.after_cons, next_start_of_isBlank hblank]
      rcases endsLine_cons hend with ⟨rfl, rfl⟩ | hend
      · exact nomatch h
      · exact ih h hend
    · obtain rfl : c = '#' := by simpa using h
      exact after_numberSign ⟨rfl, rfl, rfl⟩ rfl rfl hend

/-- What has been joined so far: nothing, or lines that leave a quote open. -/
structure Joining (pending : List Char) (state : LineState) : Prop where
  clear : Clear .start pending
  agrees : state.Agrees (MarkState.start.after pending)
  afterBlank : (MarkState.start.after pending).afterBlank = true
  open_ : pending = [] ∧ state = .complete ∨ state.isQuoted = true ∧ isComment pending = false

theorem joining_nil : Joining [] .complete :=
  ⟨trivial, ⟨rfl, rfl, rfl⟩, rfl, .inl ⟨rfl, rfl⟩⟩

theorem Joining.tracked {pending : List Char} {state : LineState} (h : Joining pending state) :
    Tracked [] false state (MarkState.start.after pending) where
  agrees := h.agrees
  comment := h.clear.comment rfl
  afterBlank := h.afterBlank
  blank _ := h.afterBlank
  escaped hescaped := by
    have hagrees := h.agrees
    rcases h.open_ with ⟨-, rfl⟩ | ⟨hquoted, -⟩
    · simp [hagrees.2.2] at hescaped
    · cases state <;> simp_all [LineState.isQuoted, LineState.Agrees]
  ended := nofun
  settled := nofun
  single := nofun

/-- Where lines have been joined, they are no comment, and nor is what they are joined to. -/
theorem Joining.eq_nil_of_isComment {pending line : List Char} {state : LineState}
    (h : Joining pending state) (hcomment : isComment (pending ++ line) = true) : pending = [] := by
  rcases h.open_ with ⟨hnil, -⟩ | ⟨hquoted, hnot⟩
  · exact hnil
  · have hall : pending.all Text.isBlank = false := by
      rw [← Bool.not_eq_true]
      intro hall
      have hagrees := h.agrees
      rw [after_start_of_all_isBlank hall] at hagrees
      cases hagrees.of_isPlain ⟨rfl, rfl, rfl⟩ <;> simp_all [LineState.isQuoted]
    rw [isComment_append hall, hnot] at hcomment
    exact nomatch hcomment

/-- A physical line of an orderly text that marking reads from `m`. -/
structure OrderlyLine (m : MarkState) (line : List Char) : Prop where
  quotes : quotesEnd m line = true
  comments : numberSignsClear [] line = true
  single : '\n' ∉ line.dropLast

section Step

variable {pending line : List Char} {state : LineState}

theorem Joining.scanned (h : Joining pending state) (hnot : isComment (pending ++ line) = false)
    (hline : OrderlyLine (MarkState.start.after pending) line) :
    Scanned false (MarkState.start.after pending) line (state.scan line) := by
  refine scanned_scan h.tracked hline.quotes hline.comments (fun hstate => ?_)
    (fun _ hcomment => ?_) hline.single
  · rcases h.open_ with ⟨-, rfl⟩ | ⟨hquoted, -⟩
    · exact nomatch hstate
    · rw [hstate] at hquoted
      exact nomatch hquoted
  · rcases h.open_ with ⟨rfl, -⟩ | ⟨hquoted, -⟩
    · rw [List.nil_append, hcomment] at hnot
      exact nomatch hnot
    · exact hquoted

/-- A comment ends the joined line, and nothing is open behind it. -/
theorem Joining.covered_of_inr (h : Joining pending state)
    (hnot : isComment (pending ++ line) = false)
    (hline : OrderlyLine (MarkState.start.after pending) line) {before : List Char}
    (hscan : state.scan line = .inr before) :
    Covered false .start (pending ++ before) ∧
      (EndsLine line → (MarkState.start.after pending).after line = .start) := by
  have hscanned := h.scanned hnot hline
  rw [hscan] at hscanned
  exact ⟨.append h.clear hscanned.1, hscanned.2⟩

/-- Where nothing is open at the end of a physical line, it ends the joined line. -/
theorem Joining.covered_of_complete (h : Joining pending state)
    (hnot : isComment (pending ++ line) = false)
    (hline : OrderlyLine (MarkState.start.after pending) line)
    (hscan : state.scan line = .inl .complete) :
    Covered false .start (stripEnd (pending ++ line)) ∧
      (EndsLine line → (MarkState.start.after pending).after line = .start) := by
  have hscanned := h.scanned hnot hline
  rw [hscan] at hscanned
  refine ⟨?_, fun hend => ?_⟩
  · have hcovered : Covered false .start (pending ++ line) := .append h.clear hscanned.1
    obtain ⟨tail, htail⟩ := stripEnd_append (pending ++ line)
    rw [htail] at hcovered
    exact hcovered.left
  · rcases hscanned.2 hend with ⟨-, hstart⟩ | ⟨hquoted, -⟩
    · exact hstart
    · exact nomatch hquoted

/-- Where a quote is open at the end of a physical line, the next one is joined to it. -/
theorem Joining.append (h : Joining pending state) (hnot : isComment (pending ++ line) = false)
    (hline : OrderlyLine (MarkState.start.after pending) line) (hend : EndsLine line)
    {next : LineState} (hscan : state.scan line = .inl next) (hne : next ≠ .complete) :
    Joining (pending ++ line) next := by
  have hscanned := h.scanned hnot hline
  rw [hscan] at hscanned
  obtain ⟨hquoted, hagrees, hclear⟩ := (hscanned.2 hend).resolve_left fun hc => hne hc.1
  refine ⟨clear_append.2 ⟨h.clear, hclear⟩, ?_, ?_, .inr ⟨hquoted, hnot⟩⟩
  · rwa [MarkState.after_append]
  · rw [MarkState.after_append]
    exact afterBlank_of_endsLine hend _

end Step

/-- The rest of an orderly text, from the start of a line on, that marking reads from `m`. -/
structure OrderlyFrom (m : MarkState) (text : List Char) : Prop where
  quotes : quotesEnd m text = true
  comments : ∀ line ∈ physicalLines text, numberSignsClear [] line = true

theorem OrderlyFrom.exists_line {m : MarkState} {text line : List Char} {rest : List (List Char)}
    (h : OrderlyFrom m text) (hlines : physicalLines text = line :: rest) :
    OrderlyLine m line ∧ (rest ≠ [] → EndsLine line) ∧
      ∃ more, physicalLines more = rest ∧ OrderlyFrom (m.after line) more := by
  have hcomments := h.comments
  rw [hlines] at hcomments
  obtain ⟨hline, hrest⟩ := List.forall_mem_cons.1 hcomments
  obtain ⟨more, rfl, rfl, hsingle, hend⟩ := physicalLines_eq_cons hlines
  obtain ⟨hquotes, hquotes'⟩ := quotesEnd_append h.quotes
  exact ⟨⟨hquotes, hline, hsingle⟩, hend, more, rfl, hquotes', hrest⟩

/-- A whole line of an orderly text and the same line of its marked form. -/
inductive MarkedLine : Except LineFault (List Char) → Except LineFault (List Char) → Prop
  | line {line : List Char} : Covered false .start line →
      MarkedLine (.ok line) (.ok (markFrom .start line))
  /-- The text ends within the line. -/
  | fault {fault fault' : LineFault} : MarkedLine (.error fault) (.error fault')

/-- The lines that are joined from the rest of an orderly text, and from its marked form. -/
theorem markedLine_joinLines {lines : List (List Char)} {text pending : List Char}
    {state : LineState} (hlines : physicalLines text = lines) (hjoining : Joining pending state)
    (htext : OrderlyFrom (MarkState.start.after pending) text) :
    List.Forall₂ MarkedLine (joinLines pending state lines)
      (joinLines (markFrom .start pending) state
        (markLines (MarkState.start.after pending) lines)) := by
  induction lines generalizing text pending state with
  | nil =>
    rw [markLines, joinLines, joinLines]
    split
    · exact .nil
    · exact .cons .fault .nil
  | cons line rest ih =>
    obtain ⟨hline, hend, more, hmore, hrest⟩ := htext.exists_line hlines
    -- Where no quote is left open, the next line starts from nothing.
    have hrestart (hstart : EndsLine line → (MarkState.start.after pending).after line = .start) :
        List.Forall₂ MarkedLine (joinLines [] .complete rest)
          (joinLines [] .complete
            (markLines ((MarkState.start.after pending).after line) rest)) := by
      cases rest with
      | nil => exact .nil
      | cons next others =>
        rw [hstart (hend (by simp))] at hrest ⊢
        exact ih hmore joining_nil hrest
    rw [markLines, joinLines, joinLines, ← markFrom_append, isComment_markFrom, scan_markFrom]
    split
    · next hcomment =>
      obtain rfl := hjoining.eq_nil_of_isComment hcomment
      exact .cons (.line trivial) (hrestart (after_start_of_isComment hcomment))
    · next hcomment =>
      rw [Bool.not_eq_true] at hcomment
      cases hscan : state.scan line with
      | inr before =>
        obtain ⟨hcovered, hstart⟩ := hjoining.covered_of_inr hcomment hline hscan
        rw [Sum.map_inr]
        dsimp only
        rw [← markFrom_append]
        exact .cons (.line hcovered) (hrestart hstart)
      | inl next =>
        -- A quote that is open at the end of the text is a fault and gives no line.
        have hopen (hne : next ≠ .complete) :
            List.Forall₂ MarkedLine (joinLines (pending ++ line) next rest)
              (joinLines (markFrom .start (pending ++ line)) next
                (markLines ((MarkState.start.after pending).after line) rest)) := by
          rw [← MarkState.after_append]
          cases rest with
          | nil =>
            rw [markLines, joinLines, joinLines, if_neg hne, if_neg hne]
            exact .cons .fault .nil
          | cons other others =>
            refine ih hmore (hjoining.append hcomment hline (hend (by simp)) hscan hne) ?_
            rwa [MarkState.after_append]
        rw [Sum.map_inl, id_eq]
        cases next with
        | complete =>
          obtain ⟨hcovered, hstart⟩ := hjoining.covered_of_complete hcomment hline hscan
          dsimp only
          rw [stripEnd_markFrom]
          exact .cons (.line hcovered) (hrestart hstart)
        | _ => exact hopen (by simp)

/-- An orderly text can be marked line by line. -/
theorem markedLine_lines {text : List Char} (h : Orderly text) :
    List.Forall₂ MarkedLine (lines text) (lines (markAll text)) := by
  rw [lines, lines, markAll, physicalLines_markFrom]
  exact markedLine_joinLines rfl joining_nil ⟨h.quotes, h.comments⟩

/-- Whoever reads a line of an orderly text from its start finds that no substitution starts at the
dollar signs that marking has left. -/
theorem covered_lines {text line : List Char} (h : Orderly text)
    (hline : .ok line ∈ lines (markAll text)) :
    Covered false .start line ∧ Settled .start line := by
  obtain ⟨found, -, hsame⟩ := exists_left_of_mem (markedLine_lines h) hline
  cases hsame with
  | line hcovered => exact ⟨hcovered.markFrom, settled_markFrom _ _⟩

end Dotpath.EnvFile
