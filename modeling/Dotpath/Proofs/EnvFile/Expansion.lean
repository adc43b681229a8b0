import Dotpath.EnvFile.Substitution
import Mathlib.Tactic.SplitIfs

/-!
# Expansion of marked values

A marked value is made of pieces: text without marks, marked names with or without braces, and marks
without a name. Expanding it puts texts for the names and dollar signs for the marks, and reads none
of these texts again.

Results:
1. `expand_eq_ok`: what a value expands to, piece by piece.
2. `not_splits_iff`, `exists_expand_error_iff`: a value is made of pieces, and can be expanded,
   unless a brace stays open in it.
3. `expand_append_dollar`: dollar signs stay where they are.
4. `expand_of_not_mem`, `not_mem_of_expand`: marks are all that is replaced, and none is left.
-/

namespace Dotpath.EnvFile

/-! ## Character by character -/

namespace Expecting

/-- What is expected after one more character. -/
def next (state : Expecting) (c : Char) : Expecting :=
  match state with
  | text => if c = mark then name else text
  | name =>
    if c = '\x7b' then braced []
    else if isNameChar c then bare [c]
    else if c = mark then name
    else text
  | bare found => if isNameChar c then bare (found ++ [c]) else if c = mark then name else text
  | braced found => if c = '\x7d' then text else braced (found ++ [c])

def after (state : Expecting) (cs : List Char) : Expecting :=
  cs.foldl next state

theorem after_append (state : Expecting) (cs more : List Char) :
    state.after (cs ++ more) = (state.after cs).after more :=
  List.foldl_append

/-- What a character adds to the result. -/
def emit (lookup : List Char → List Char) (state : Expecting) (c : Char) : List Char :=
  match state with
  | text => if c = mark then [] else [c]
  | name =>
    if c = '\x7b' then []
    else if isNameChar c then []
    else if c = mark then ['$']
    else ['$', c]
  | bare found =>
    if isNameChar c then [] else if c = mark then lookup found else lookup found ++ [c]
  | braced found => if c = '\x7d' then lookup found else []

/-- No mark and no brace is waiting for a name, so that what comes next can stand by itself. -/
def isClosed : Expecting → Bool
  | text | bare _ => true
  | name | braced _ => false

end Expecting

theorem expandFrom_cons (lookup : List Char → List Char) (state : Expecting) (c : Char)
    (cs : List Char) :
    expandFrom lookup state (c :: cs)
      = (expandFrom lookup (state.next c) cs).map (state.emit lookup c ++ ·) := by
  cases state <;> simp only [expandFrom, Expecting.next, Expecting.emit] <;> split_ifs <;> simp

/-- A dollar sign that stands where no name is awaited is a character of the text, and cuts it in
two. -/
theorem expandFrom_append_dollar (lookup : List Char → List Char) {state : Expecting}
    {front : List Char} (h : (state.after front).isClosed = true) (more : List Char) :
    expandFrom lookup state (front ++ '$' :: more)
      = (expandFrom lookup state front).bind fun shown =>
          (expandFrom lookup .text more).map (shown ++ '$' :: ·) := by
  induction front generalizing state with
  | nil =>
    cases state with
    | text => rfl
    | bare found =>
      have hname : ¬isNameChar '$' = true := by decide +kernel
      simp only [List.nil_append, expandFrom, if_neg hname]
      rfl
    | name => exact nomatch h
    | braced found => exact nomatch h
  | cons c cs ih =>
    have hcs : ((state.next c).after cs).isClosed = true := h
    rw [List.cons_append, expandFrom_cons, expandFrom_cons, ih hcs]
    cases expandFrom lookup (state.next c) cs with
    | none => rfl
    | some shown => cases expandFrom lookup .text more <;> simp

/-! ## Pieces -/

/-- A piece of a marked value. -/
inductive Piece where
  | plain (text : List Char)
  | braced (name : List Char)
  | bare (name : List Char)
  /-- A mark without a name. -/
  | dollar
deriving DecidableEq

namespace Piece

/-- The piece as it stands in the value. -/
def written : Piece → List Char
  | plain text => text
  | braced name => mark :: '\x7b' :: (name ++ ['\x7d'])
  | bare name => mark :: name
  | dollar => [mark]

/-- The piece with its name replaced. -/
def shown (lookup : List Char → List Char) : Piece → List Char
  | plain text => text
  | braced name | bare name => lookup name
  | dollar => ['$']

/-- The name that is replaced. -/
def name? : Piece → Option (List Char)
  | braced name | bare name => some name
  | plain _ | dollar => none

/-- The piece can be read off where `rest` comes after it. A name without braces goes as far as it
can. -/
def Fits (rest : List Char) : Piece → Prop
  | plain text => mark ∉ text
  | braced name => '\x7d' ∉ name
  | bare name => name ≠ [] ∧ name.all isNameChar = true ∧ rest.head?.any isNameChar = false
  | dollar => rest.head?.any (fun c => c = '\x7b' || isNameChar c) = false

end Piece

/-- The value is made of the pieces, in order. -/
inductive Splits : List Char → List Piece → Prop
  | nil : Splits [] []
  | cons (piece : Piece) {rest : List Char} {pieces : List Piece} : piece.Fits rest →
      Splits rest pieces → Splits (piece.written ++ rest) (piece :: pieces)

theorem splits_of_not_mem {value : List Char} (h : mark ∉ value) :
    Splits value [.plain value] := by
  have hvalue := Splits.cons (.plain value) h .nil
  rwa [Piece.written, List.append_nil] at hvalue

theorem Splits.exists_fits {value : List Char} {pieces : List Piece} (h : Splits value pieces)
    {piece : Piece} (hpiece : piece ∈ pieces) : ∃ rest, piece.Fits rest := by
  induction h with
  | nil => exact absurd hpiece List.not_mem_nil
  | cons first hfits _ ih =>
    rcases List.mem_cons.1 hpiece with rfl | hpiece
    · exact ⟨_, hfits⟩
    · exact ih hpiece

/-- A mark ends a name without braces, and it gives no name to a mark before it, so that a piece in
front of one is the piece that it is at the end. -/
theorem Piece.fits_append_mark {piece : Piece} {front more : List Char} :
    piece.Fits (front ++ mark :: more) ↔ piece.Fits front := by
  have hname : isNameChar mark = false := by decide +kernel
  have hbrace : mark ≠ '\x7b' := by decide
  cases piece with
  | plain text => exact Iff.rfl
  | braced name => exact Iff.rfl
  | bare name => cases front <;> simp [Fits, hname]
  | dollar => cases front <;> simp [Fits, hname, hbrace]

/-- A mark opens a brace in the value that no brace closes. What stands in front of the mark is made
of whole pieces, so that it is in no name. -/
def IsLeftOpen (value : List Char) : Prop :=
  ∃ front name, value = front ++ mark :: '\x7b' :: name ∧ (∃ pieces, Splits front pieces) ∧
    '\x7d' ∉ name

theorem Piece.Fits.prepend {piece : Piece} {rest : List Char} (hfits : piece.Fits rest)
    (h : (∃ pieces, Splits rest pieces) ∨ IsLeftOpen rest) :
    (∃ pieces, Splits (piece.written ++ rest) pieces) ∨ IsLeftOpen (piece.written ++ rest) := by
  rcases h with ⟨pieces, hpieces⟩ | ⟨front, name, rfl, ⟨pieces, hpieces⟩, hname⟩
  · exact .inl ⟨piece :: pieces, .cons piece hfits hpieces⟩
  · have hfront : Splits (piece.written ++ front) (piece :: pieces) :=
      .cons piece (Piece.fits_append_mark.1 hfits) hpieces
    exact .inr ⟨piece.written ++ front, name, (List.append_assoc ..).symm, ⟨_, hfront⟩, hname⟩

/-! ## Expanding a piece -/

section Expanding

variable {lookup : List Char → List Char} {rest : List Char}

theorem expandFrom_plain {text : List Char} (h : mark ∉ text) :
    expandFrom lookup .text (text ++ rest) = (expandFrom lookup .text rest).map (text ++ ·) := by
  induction text with
  | nil => simp
  | cons c cs ih =>
    rw [List.mem_cons, not_or] at h
    rw [List.cons_append, expandFrom, if_neg (Ne.symm h.1), ih h.2, Option.map_map]
    rfl

theorem expandFrom_braced {name : List Char} (h : '\x7d' ∉ name) (before : List Char) :
    expandFrom lookup (.braced before) (name ++ '\x7d' :: rest)
      = (expandFrom lookup .text rest).map (lookup (before ++ name) ++ ·) := by
  induction name generalizing before with
  | nil => simp [expandFrom]
  | cons c cs ih =>
    rw [List.mem_cons, not_or] at h
    rw [List.cons_append, expandFrom, if_neg (Ne.symm h.1), ih h.2, List.append_assoc,
      List.singleton_append]

theorem expandFrom_bare {name : List Char} (hname : name.all isNameChar = true)
    (hrest : rest.head?.any isNameChar = false) (before : List Char) :
    expandFrom lookup (.bare before) (name ++ rest)
      = (expandFrom lookup .text rest).map (lookup (before ++ name) ++ ·) := by
  induction name generalizing before with
  | nil =>
    cases rest with
    | nil => simp [expandFrom]
    | cons c cs =>
      have hc : ¬isNameChar c = true := by simpa using hrest
      rw [List.nil_append, List.append_nil]
      simp only [expandFrom, if_neg hc]
      split
      · rfl
      · rw [Option.map_map]
        rfl
  | cons c cs ih =>
    rw [List.all_cons, Bool.and_eq_true] at hname
    rw [List.cons_append, expandFrom, if_pos hname.1, ih hname.2, List.append_assoc,
      List.singleton_append]

theorem expandFrom_dollar (h : rest.head?.any (fun c => c = '\x7b' || isNameChar c) = false) :
    expandFrom lookup .name rest = (expandFrom lookup .text rest).map ('$' :: ·) := by
  cases rest with
  | nil => rfl
  | cons c cs =>
    simp only [List.head?_cons, Option.any_some, Bool.or_eq_false_iff, decide_eq_false_iff_not]
      at h
    simp only [expandFrom, if_neg h.1, if_neg (Bool.eq_false_iff.1 h.2)]
    split
    · rfl
    · rw [Option.map_map]
      rfl

theorem expandFrom_written {piece : Piece} (h : piece.Fits rest) :
    expandFrom lookup .text (piece.written ++ rest)
      = (expandFrom lookup .text rest).map (piece.shown lookup ++ ·) := by
  cases piece with
  | plain text => exact expandFrom_plain h
  | braced name =>
    have hbraced : expandFrom lookup (.braced []) (name ++ '\x7d' :: rest)
        = (expandFrom lookup .text rest).map (lookup name ++ ·) := expandFrom_braced h []
    simpa [Piece.written, Piece.shown, expandFrom] using hbraced
  | bare name =>
    obtain ⟨hne, hname, hrest⟩ := h
    obtain ⟨c, cs, rfl⟩ := List.exists_cons_of_ne_nil hne
    rw [List.all_cons, Bool.and_eq_true] at hname
    have hbrace : c ≠ '\x7b' := by
      rintro rfl
      exact absurd hname.1 (by decide +kernel)
    rw [Piece.written, List.cons_append, expandFrom, if_pos rfl, List.cons_append, expandFrom,
      if_neg hbrace, if_pos hname.1]
    exact expandFrom_bare hname.2 hrest [c]
  | dollar => exact expandFrom_dollar h

theorem expandFrom_of_splits {value : List Char} {pieces : List Piece} (h : Splits value pieces) :
    expandFrom lookup .text value = some (pieces.flatMap (·.shown lookup)) := by
  induction h with
  | nil => rfl
  | cons piece hfits _ ih => rw [expandFrom_written hfits, ih, Option.map_some, List.flatMap_cons]

/-- What stands in front of a mark is expanded by itself. -/
theorem expandFrom_append_mark {front : List Char} {pieces : List Piece} (h : Splits front pieces)
    (more : List Char) :
    expandFrom lookup .text (front ++ mark :: more)
      = (expandFrom lookup .text (mark :: more)).map (pieces.flatMap (·.shown lookup) ++ ·) := by
  induction h with
  | nil => simp
  | cons piece hfits _ ih =>
    rw [List.append_assoc, expandFrom_written (Piece.fits_append_mark.2 hfits), ih, Option.map_map,
      List.flatMap_cons]
    simp only [Function.comp_def, List.append_assoc]

theorem expandFrom_braced_eq_none {name : List Char} (h : '\x7d' ∉ name) (before : List Char) :
    expandFrom lookup (.braced before) name = none := by
  induction name generalizing before with
  | nil => rfl
  | cons c cs ih =>
    rw [List.mem_cons, not_or] at h
    rw [expandFrom, if_neg (Ne.symm h.1), ih h.2]

theorem expandFrom_of_isLeftOpen {value : List Char} (h : IsLeftOpen value) :
    expandFrom lookup .text value = none := by
  obtain ⟨front, name, rfl, ⟨pieces, hpieces⟩, hname⟩ := h
  rw [expandFrom_append_mark hpieces, expandFrom, if_pos rfl, expandFrom, if_pos rfl,
    expandFrom_braced_eq_none hname, Option.map_none]

end Expanding

/-! ## Finding the pieces -/

namespace Expecting

/-- What has been read of the piece at hand. -/
def written : Expecting → List Char
  | .text => []
  | .name => [mark]
  | .bare found => mark :: found
  | .braced found => mark :: '\x7b' :: found

/-- What has been read can be the start of a piece. -/
def IsStart : Expecting → Prop
  | .text | .name => True
  | .bare found => found ≠ [] ∧ found.all isNameChar = true
  | .braced found => '\x7d' ∉ found

end Expecting

/-- The text is made of pieces, or it ends in a brace that stays open. -/
theorem splits_or_isLeftOpen (state : Expecting) (hstart : state.IsStart) (text : List Char) :
    (∃ pieces, Splits (state.written ++ text) pieces) ∨ IsLeftOpen (state.written ++ text) := by
  induction text generalizing state with
  | nil =>
    cases state with
    | text => exact .inl ⟨[], .nil⟩
    | name => exact .inl ⟨[.dollar], .cons .dollar rfl .nil⟩
    | bare name => exact .inl ⟨[.bare name], .cons (.bare name) ⟨hstart.1, hstart.2, rfl⟩ .nil⟩
    | braced name =>
      refine .inr ⟨[], name, ?_, ⟨[], .nil⟩, hstart⟩
      rw [List.append_nil]
      rfl
  | cons c cs ih =>
    -- Behind a name, and behind a mark without one, the text goes on as it would by itself.
    have htext : (∃ pieces, Splits (c :: cs) pieces) ∨ IsLeftOpen (c :: cs) := by
      by_cases hc : c = mark
      · have hname : Expecting.name.IsStart := trivial
        rw [hc]
        exact ih _ hname
      · have hplain : Expecting.text.IsStart := trivial
        have hfits : (Piece.plain [c]).Fits cs := by simpa [Piece.Fits] using Ne.symm hc
        exact hfits.prepend (ih _ hplain)
    cases state with
    | text => exact htext
    | name =>
      by_cases hbrace : c = '\x7b'
      · subst hbrace
        have hbraced : (Expecting.braced []).IsStart := List.not_mem_nil
        exact ih _ hbraced
      · by_cases hname : isNameChar c = true
        · have hbare : (Expecting.bare [c]).IsStart := ⟨by simp, by simpa using hname⟩
          exact ih _ hbare
        · have hfits : Piece.dollar.Fits (c :: cs) := by simp [Piece.Fits, hbrace, hname]
          exact hfits.prepend htext
    | bare name =>
      by_cases hname : isNameChar c = true
      · have hbare : (Expecting.bare (name ++ [c])).IsStart := ⟨by simp, by simp [hstart.2, hname]⟩
        simpa [Expecting.written] using ih _ hbare
      · have hfits : (Piece.bare name).Fits (c :: cs) := ⟨hstart.1, hstart.2, by simp [hname]⟩
        exact hfits.prepend htext
    | braced name =>
      by_cases hc : c = '\x7d'
      · subst hc
        have hplain : Expecting.text.IsStart := trivial
        have hfits : (Piece.braced name).Fits cs := hstart
        simpa [Piece.written, Expecting.written] using hfits.prepend (ih _ hplain)
      · have hname : (Expecting.braced (name ++ [c])).IsStart :=
          List.not_mem_append hstart (by simpa using Ne.symm hc)
        simpa [Expecting.written] using ih _ hname

/-- A value is made of pieces unless it has a brace that stays open. -/
theorem not_splits_iff {value : List Char} :
    (¬∃ pieces, Splits value pieces) ↔ IsLeftOpen value := by
  constructor
  · exact (splits_or_isLeftOpen .text trivial value).resolve_left
  · rintro hopen ⟨pieces, hpieces⟩
    have hnone : expandFrom id .text value = none := expandFrom_of_isLeftOpen hopen
    rw [expandFrom_of_splits hpieces] at hnone
    exact nomatch hnone

theorem exists_splits {lookup : List Char → List Char} {value out : List Char}
    (h : expandFrom lookup .text value = some out) : ∃ pieces, Splits value pieces := by
  refine Classical.not_not.1 fun hsplits => ?_
  rw [expandFrom_of_isLeftOpen (not_splits_iff.1 hsplits)] at h
  exact nomatch h

/-! ## Values -/

section Values

variable {lookup : List Char → List Char} {value out : List Char}

theorem expand_eq_ok_iff :
    expand lookup value = .ok out ↔ expandFrom lookup .text value = some out := by
  rw [expand]
  cases expandFrom lookup .text value <;> simp

/-- A value expands to its pieces with their names replaced, if it is made of pieces. -/
theorem expand_eq_ok :
    expand lookup value = .ok out
      ↔ ∃ pieces, Splits value pieces ∧ out = pieces.flatMap (·.shown lookup) := by
  rw [expand_eq_ok_iff]
  constructor
  · intro h
    obtain ⟨pieces, hpieces⟩ := exists_splits h
    rw [expandFrom_of_splits hpieces] at h
    exact ⟨pieces, hpieces, (Option.some.inj h).symm⟩
  · rintro ⟨pieces, hpieces, rfl⟩
    rw [expandFrom_of_splits hpieces]

/-- Whether a value can be expanded does not depend on what names stand for. -/
theorem exists_expand (h : expand lookup value = .ok out) (lookup' : List Char → List Char) :
    ∃ out', expand lookup' value = .ok out' := by
  obtain ⟨pieces, hpieces, -⟩ := expand_eq_ok.1 h
  exact ⟨_, expand_eq_ok.2 ⟨pieces, hpieces, rfl⟩⟩

theorem exists_expand_error_iff :
    (∃ fault, expand lookup value = .error fault) ↔ ¬∃ pieces, Splits value pieces := by
  constructor
  · rintro ⟨fault, h⟩ ⟨pieces, hpieces⟩
    rw [expand_eq_ok.2 ⟨pieces, hpieces, rfl⟩] at h
    exact nomatch h
  · intro hsplits
    rw [expand, expandFrom_of_isLeftOpen (not_splits_iff.1 hsplits)]
    exact ⟨_, rfl⟩

theorem expand_append_dollar {front more : List Char}
    (h : (Expecting.text.after front).isClosed = true)
    (hout : expand lookup (front ++ '$' :: more) = .ok out) :
    ∃ shown rest, expand lookup front = .ok shown ∧ expand lookup more = .ok rest ∧
      out = shown ++ '$' :: rest := by
  rw [expand_eq_ok_iff, expandFrom_append_dollar lookup h] at hout
  obtain ⟨shown, hshown, hmore⟩ := Option.bind_eq_some_iff.1 hout
  obtain ⟨rest, hrest, hsame⟩ := Option.map_eq_some_iff.1 hmore
  exact ⟨shown, rest, expand_eq_ok_iff.2 hshown, expand_eq_ok_iff.2 hrest, hsame.symm⟩

theorem expand_of_not_mem (h : mark ∉ value) : expand lookup value = .ok value :=
  expand_eq_ok.2 ⟨[.plain value], splits_of_not_mem h, by simp [Piece.shown]⟩

/-- Every mark is replaced, so the result has none but those of the texts put in. -/
theorem not_mem_of_expand (hlookup : ∀ name, mark ∉ lookup name)
    (h : expand lookup value = .ok out) : mark ∉ out := by
  obtain ⟨pieces, hpieces, rfl⟩ := expand_eq_ok.1 h
  intro hmem
  obtain ⟨piece, hpiece, hshown⟩ := List.mem_flatMap.1 hmem
  obtain ⟨rest, hfits⟩ := hpieces.exists_fits hpiece
  cases piece with
  | plain text => exact hfits hshown
  | braced name => exact hlookup name hshown
  | bare name => exact hlookup name hshown
  | dollar =>
    have hnot : mark ∉ ['$'] := by decide
    exact hnot hshown

end Values

end Dotpath.EnvFile
