import Dotpath.Proofs.Path.Grammar

/-!
# The text of a path

A path is written without escapes, so only some chains of steps can be read back from their text:
`Path.Spellable` says which. A path is written from left to right (`render_concat`), and each step
adds a part to the text or a bracket to its last part (`spells_appendTo`).

Results:
1. `spells_render`: a spellable path is spelled by its own text.
2. `spellable_of_spells`: what a text spells is spellable.
3. `path_text_round_trip`: paths are told apart by their texts.
-/

namespace Dotpath

/-! ## Lists side by side -/

section Forall₂

variable {α β : Type} {R : α → β → Prop} {as : List α} {bs : List β}

theorem forall₂_concat {a : α} {b : β} (h : List.Forall₂ R as bs) (hab : R a b) :
    List.Forall₂ R (as ++ [a]) (bs ++ [b]) :=
  List.rel_append h (.cons hab .nil)

theorem exists_concat_of_forall₂ (h : List.Forall₂ R as bs) (hne : as ≠ []) :
    ∃ before a others b, as = before ++ [a] ∧ bs = others ++ [b] ∧
      List.Forall₂ R before others ∧ R a b := by
  induction h with
  | nil => exact absurd rfl hne
  | @cons a b as bs hab hrest ih =>
    cases hrest with
    | nil => exact ⟨[], a, [], b, rfl, rfl, .nil, hab⟩
    | cons hnext hmore =>
      obtain ⟨before, last, others, last', hbefore, hothers, hinit, hlast⟩ := ih (by simp)
      rw [hbefore, hothers]
      exact ⟨a :: before, last, b :: others, last', rfl, rfl, .cons hab hinit, hlast⟩

end Forall₂

/-! ## Spellable paths -/

/-- A step that a path text can hold: a name that is not empty and has neither dot nor opening
bracket, or a position within the limit. -/
def Accessor.Spellable : Accessor → Prop
  | field name => name ≠ "" ∧ '.' ∉ name.toList ∧ '[' ∉ name.toList
  | index position => position ≤ Path.maxIndex

instance : DecidablePred Accessor.Spellable
  | .field _ => inferInstanceAs (Decidable (_ ∧ _ ∧ _))
  | .index _ => inferInstanceAs (Decidable (_ ≤ _))

namespace Path

/-- A path that a text can stand for. -/
structure Spellable (path : Path) : Prop where
  nonempty : path ≠ []
  steps : ∀ accessor ∈ path, accessor.Spellable

theorem render_concat (path : Path) (accessor : Accessor) :
    render (path ++ [accessor]) = accessor.appendTo (render path) := by
  rw [render, List.foldl_append]
  rfl

/-! ## What a text spells is spellable -/

theorem spellable_of_mem_nameSteps {name : List Char} {step : Accessor}
    (h : step ∈ nameSteps name) (hdot : '.' ∉ name) (hopen : '[' ∉ name) : step.Spellable := by
  rw [nameSteps] at h
  split at h
  · exact absurd h List.not_mem_nil
  · next hne =>
    obtain rfl := List.mem_singleton.1 h
    refine ⟨by simpa using hne, ?_, ?_⟩ <;> rwa [String.toList_ofList]

theorem spellable_of_isIndex {contents : List Char} {step : Accessor} (h : IsIndex contents step) :
    step.Spellable := by
  obtain ⟨-, -, hwithin, rfl⟩ := h
  exact hwithin

theorem spellable_of_isSteps {part : List Char} {steps : Path} (h : IsSteps part steps)
    (hdotless : '.' ∉ part) : ∀ step ∈ steps, step.Spellable := by
  obtain ⟨-, name, contents, indices, ⟨hopen, rest, rfl, -⟩, hindices, rfl⟩ := h
  intro step hstep
  rcases List.mem_append.1 hstep with hname | hindex
  · exact spellable_of_mem_nameSteps hname
      (fun hdot => hdotless (List.mem_append_left _ hdot)) hopen
  · obtain ⟨inner, -, hinner⟩ := exists_left_of_mem hindices hindex
    exact spellable_of_isIndex hinner

/-- A part is not empty, so it has a name or a bracket. -/
theorem ne_nil_of_isSteps {part : List Char} {steps : Path} (h : IsSteps part steps) :
    steps ≠ [] := by
  obtain ⟨hne, name, contents, indices, ⟨-, rest, rfl, hrest, -⟩, hindices, rfl⟩ := h
  intro hnil
  obtain ⟨hname, rfl⟩ := List.append_eq_nil_iff.1 hnil
  obtain rfl := List.forall₂_nil_right_iff.1 hindices
  rw [nameSteps] at hname
  split at hname
  · next hempty => exact hne (by rw [hempty, hrest]; rfl)
  · exact nomatch hname

theorem spellable_of_spells {text : String} {path : Path} (h : Spells text path) :
    path.Spellable := by
  obtain ⟨-, parts, steps, ⟨hne, -, hdotless⟩, hsteps, rfl⟩ := h
  constructor
  · cases hsteps with
    | nil => exact absurd rfl hne
    | cons hfirst _ => simp [ne_nil_of_isSteps hfirst]
  · intro accessor haccessor
    obtain ⟨own, hown, hmem⟩ := List.mem_flatten.1 haccessor
    obtain ⟨part, hpart, hpartSteps⟩ := exists_left_of_mem hsteps hown
    exact spellable_of_isSteps hpartSteps (hdotless part hpart) accessor hmem

/-! ## A spellable path is spelled by its text -/

theorem isIndex_digits {position : Nat} (h : position ≤ maxIndex) :
    IsIndex (Nat.toDigits 10 position) (.index position) := by
  have hvalue : decimal (Nat.toDigits 10 position) = position := by
    rw [← digitsValue_eq_decimal]
    exact Nat.ofDigitChars_ten_toDigits
  refine ⟨Nat.toDigits_ne_nil, ?_, by rwa [hvalue], by rw [hvalue]⟩
  exact fun c hc => Nat.isDigit_of_mem_toDigits (by decide) (by decide) hc

theorem not_mem_of_isIndex {contents : List Char} {step : Accessor} (h : IsIndex contents step)
    {c : Char} (hc : c.isDigit = false) : c ∉ contents := by
  intro hmem
  rw [h.digits c hmem] at hc
  exact nomatch hc

theorem isSteps_name {name : String} (h : (Accessor.field name).Spellable) :
    IsSteps name.toList [.field name] := by
  obtain ⟨hne, -, hopen⟩ := h
  have hne' : name.toList ≠ [] := by simpa using hne
  refine ⟨hne', name.toList, [], [], ⟨hopen, [], by simp, rfl, by simp⟩, .nil, ?_⟩
  rw [nameSteps, if_neg hne', String.ofList_toList]
  rfl

/-- One more bracket at the end of a part, which may be empty so far. -/
theorem isSteps_bracket {name contents : List Char} {before : List (List Char)} {indices : Path}
    {rest : List Char} {step : Accessor} (hopen : '[' ∉ name) (hrest : IsBrackets rest before)
    (hindices : List.Forall₂ IsIndex before indices) (hstep : IsIndex contents step) :
    IsSteps (name ++ rest ++ bracketed contents) (nameSteps name ++ indices ++ [step]) := by
  have hclosed : ∀ inner ∈ before ++ [contents], ']' ∉ inner := by
    intro inner hinner
    rcases List.mem_append.1 hinner with h | h
    · exact hrest.closed inner h
    · obtain rfl := List.mem_singleton.1 h
      exact not_mem_of_isIndex hstep (by decide)
  have hbrackets : IsBrackets (rest ++ bracketed contents) (before ++ [contents]) :=
    ⟨by simp [hrest.text_eq], hclosed⟩
  exact ⟨by simp [bracketed], name, _, _, ⟨hopen, _, List.append_assoc .., hbrackets⟩,
    forall₂_concat hindices hstep, List.append_assoc ..⟩

theorem isSteps_concat {part contents : List Char} {steps : Path} {step : Accessor}
    (h : IsSteps part steps) (hstep : IsIndex contents step) :
    IsSteps (part ++ bracketed contents) (steps ++ [step]) := by
  obtain ⟨-, name, before, indices, ⟨hopen, rest, rfl, hrest⟩, hindices, rfl⟩ := h
  exact isSteps_bracket hopen hrest hindices hstep

theorem toList_bracket (position : Nat) :
    ("[" ++ toString position ++ "]").toList = bracketed (Nat.toDigits 10 position) := by
  simp [bracketed]

theorem spells_of_isSteps {text : String} {steps : Path} (h : IsSteps text.toList steps)
    (hdotless : '.' ∉ text.toList) : Spells text steps := by
  refine ⟨by simpa using h.nonempty, [text.toList], [steps], ⟨by simp, rfl, by simpa⟩, ?_, by simp⟩
  exact .cons h .nil

/-- The first step stands alone. -/
theorem spells_text {accessor : Accessor} (h : accessor.Spellable) :
    Spells (accessor.appendTo "") [accessor] := by
  cases accessor with
  | field name => exact spells_of_isSteps (isSteps_name h) h.2.1
  | index position =>
    have hindex := isIndex_digits h
    have htext : (Accessor.appendTo "" (.index position)).toList
        = bracketed (Nat.toDigits 10 position) := by
      rw [← toList_bracket]
      simp [Accessor.appendTo]
    apply spells_of_isSteps
    · rw [htext]
      exact isSteps_bracket List.not_mem_nil ⟨rfl, by simp⟩ .nil hindex
    · rw [htext]
      simpa [bracketed] using not_mem_of_isIndex hindex (by decide)

/-- A name that follows is a new part. -/
theorem spells_field {text name : String} {path : Path} (h : Spells text path)
    (hname : (Accessor.field name).Spellable) :
    Spells (text ++ "." ++ name) (path ++ [.field name]) := by
  obtain ⟨hne, parts, steps, ⟨hparts, hjoined, hdotless⟩, hsteps, rfl⟩ := h
  refine ⟨by simp, parts ++ [name.toList], steps ++ [[.field name]], ⟨by simp, ?_, ?_⟩, ?_, by simp⟩
  · rw [Text.joinWith_concat hparts, hjoined]
    simp
  · intro part hpart
    rcases List.mem_append.1 hpart with hpart | hpart
    · exact hdotless part hpart
    · obtain rfl := List.mem_singleton.1 hpart
      exact hname.2.1
  · exact forall₂_concat hsteps (isSteps_name hname)

/-- A position that follows is a bracket more of the last part. -/
theorem spells_index {text : String} {path : Path} {position : Nat} (h : Spells text path)
    (hposition : position ≤ maxIndex) :
    Spells (text ++ "[" ++ toString position ++ "]") (path ++ [.index position]) := by
  obtain ⟨hne, parts, steps, ⟨hparts, hjoined, hdotless⟩, hsteps, rfl⟩ := h
  have hindex := isIndex_digits hposition
  obtain ⟨before, part, others, own, rfl, rfl, hbefore, hlast⟩ :=
    exists_concat_of_forall₂ hsteps hparts
  -- Only the last part gets longer, so the parts before it keep their steps.
  refine ⟨by simp, before ++ [part ++ bracketed (Nat.toDigits 10 position)],
    others ++ [own ++ [.index position]], ⟨by simp, ?_, ?_⟩, ?_, by simp⟩
  · rw [Text.joinWith_concat_append, hjoined, ← toList_bracket]
    simp
  · intro longer hlonger
    rcases List.mem_append.1 hlonger with hlonger | hlonger
    · exact hdotless longer (List.mem_append_left _ hlonger)
    · obtain rfl := List.mem_singleton.1 hlonger
      have hpart := hdotless part (by simp)
      have hdigits : '.' ∉ Nat.toDigits 10 position := not_mem_of_isIndex hindex (by decide)
      simp [bracketed, hpart, hdigits]
  · exact forall₂_concat hbefore (isSteps_concat hlast hindex)

theorem spells_appendTo {text : String} {path : Path} {accessor : Accessor} (h : Spells text path)
    (haccessor : accessor.Spellable) : Spells (accessor.appendTo text) (path ++ [accessor]) := by
  cases accessor with
  | field name =>
    rw [Accessor.appendTo, if_neg (by simpa using h.nonempty)]
    exact spells_field h haccessor
  | index position => exact spells_index h haccessor

theorem spells_render {path : Path} (h : path.Spellable) : Spells path.render path := by
  obtain ⟨hne, hsteps⟩ := h
  induction path using List.reverseRecOn with
  | nil => exact absurd rfl hne
  | append_singleton path accessor ih =>
    have haccessor := hsteps accessor (by simp)
    rw [render_concat]
    -- The empty path has no text that could be extended, so the first step is a case of its own.
    by_cases hpath : path = []
    · subst hpath
      exact spells_text haccessor
    · have hspells := ih hpath fun step hstep => hsteps step (List.mem_append_left _ hstep)
      exact spells_appendTo hspells haccessor

/-! ## Texts without brackets -/

/-- A part without brackets is a name. -/
theorem steps_of_not_mem {part : List Char} {steps : Path} (h : IsSteps part steps)
    (hopen : '[' ∉ part) : steps = [.field (.ofList part)] := by
  obtain ⟨hne, name, contents, indices, ⟨-, rest, rfl, hrest⟩, hindices, rfl⟩ := h
  -- A bracket would put its opening character into the part.
  obtain rfl : contents = [] := by
    cases contents with
    | nil => rfl
    | cons inner contents => simp [hrest.text_eq, bracketed] at hopen
  obtain rfl : rest = [] := hrest.text_eq
  obtain rfl := List.forall₂_nil_left_iff.1 hindices
  rw [List.append_nil] at hne ⊢
  rw [nameSteps, if_neg hne, List.append_nil]

theorem flatten_of_not_mem {parts : List (List Char)} {steps : List Path}
    (h : List.Forall₂ IsSteps parts steps) (hopen : ∀ part ∈ parts, '[' ∉ part) :
    (steps.flatten = parts.map fun part => .field (.ofList part)) ∧ ∀ part ∈ parts, part ≠ [] := by
  induction h with
  | nil => exact ⟨rfl, by simp⟩
  | cons hfirst _ ih =>
    obtain ⟨hpart, hrest⟩ := List.forall_mem_cons.1 hopen
    obtain ⟨hnames, hfilled⟩ := ih hrest
    refine ⟨?_, List.forall_mem_cons.2 ⟨hfirst.nonempty, hfilled⟩⟩
    rw [List.flatten_cons, steps_of_not_mem hfirst hpart, hnames]
    rfl

theorem render_names {parts : List (List Char)} (hne : parts ≠ [])
    (h : ∀ part ∈ parts, part ≠ []) :
    render (parts.map fun part => .field (.ofList part)) = .ofList (Text.joinWith '.' parts) := by
  induction parts using List.reverseRecOn with
  | nil => exact absurd rfl hne
  | append_singleton parts part ih =>
    rw [List.map_append, List.map_singleton, render_concat]
    by_cases hparts : parts = []
    · subst hparts
      rfl
    · have hbefore := ih hparts fun word hword => h word (List.mem_append_left _ hword)
      have hjoined : Text.joinWith '.' parts ≠ [] := by
        obtain ⟨word, hword⟩ := List.exists_mem_of_ne_nil parts hparts
        obtain ⟨c, hc⟩ := List.exists_mem_of_ne_nil word (h word (List.mem_append_left _ hword))
        exact List.ne_nil_of_mem (Text.mem_joinWith hword hc)
      rw [hbefore, Accessor.appendTo, if_neg (by simpa using hjoined), Text.joinWith_concat hparts]
      simp [← String.toList_inj]

/-- A text without brackets spells names only, and is the text of their path. -/
theorem exists_names_of_spells {text : String} {path : Path} (h : Spells text path)
    (hopen : '[' ∉ text.toList) :
    ∃ names : List String, path = names.map .field ∧ path.render = text := by
  obtain ⟨-, parts, steps, ⟨hparts, hjoined, -⟩, hsteps, rfl⟩ := h
  have hclean : ∀ part ∈ parts, '[' ∉ part := fun part hpart hmem =>
    hopen (hjoined ▸ Text.mem_joinWith hpart hmem)
  obtain ⟨hnames, hfilled⟩ := flatten_of_not_mem hsteps hclean
  refine ⟨parts.map .ofList, by simp [hnames], ?_⟩
  rw [hnames, render_names hparts hfilled, hjoined, String.ofList_toList]

/-! ## Reading back -/

theorem parse_render_iff {path : Path} : parse path.render = .ok path ↔ path.Spellable :=
  ⟨fun h => spellable_of_spells (parse_eq_ok.1 h), fun h => parse_eq_ok.2 (spells_render h)⟩

theorem spellable_of_parse {text : String} {path : Path} (h : parse text = .ok path) :
    path.Spellable :=
  spellable_of_spells (parse_eq_ok.1 h)

theorem render_inj {path other : Path} (h : path.Spellable) (h' : other.Spellable)
    (heq : path.render = other.render) : path = other := by
  have hpath := parse_render_iff.2 h
  rw [heq, parse_render_iff.2 h'] at hpath
  exact (Except.ok.inj hpath).symm

end Path

/-- Writing and reading a path undo each other. A path that was read is read again from its own
text, the paths that can be read from their own text are the spellable ones, and two texts are read
as the same path exactly if the paths that they are read as have the same text. -/
theorem path_text_round_trip :
    (∀ text path, Path.parse text = .ok path → Path.parse path.render = .ok path) ∧
      (∀ path : Path, Path.parse path.render = .ok path ↔ path.Spellable) ∧
      ∀ text other path path', Path.parse text = .ok path → Path.parse other = .ok path' →
        (path = path' ↔ path.render = path'.render) := by
  refine ⟨fun text path h => ?_, fun path => Path.parse_render_iff, ?_⟩
  · exact Path.parse_render_iff.2 (Path.spellable_of_parse h)
  · intro text other path path' h h'
    constructor
    · exact fun heq => by rw [heq]
    · exact Path.render_inj (Path.spellable_of_parse h) (Path.spellable_of_parse h')

/-- A position first, then a name with a closing bracket and one with a line break. -/
def cellPath : Path := [.index 7, .field "a]", .index 0, .field "b\nc"]

theorem path_text_round_trip_cell :
    cellPath.Spellable ∧ Path.parse "[007].a].[0].b\nc" = .ok cellPath ∧
    Path.parse cellPath.render = .ok cellPath ∧
    Path.parse "[7].a]" = .ok [.index 7, .field "a]"] ∧
    (cellPath = [.index 7, .field "a]"]
      ↔ cellPath.render = Path.render [.index 7, .field "a]"]) :=
  ⟨(path_text_round_trip.2.1 cellPath).1 rfl, rfl,
    path_text_round_trip.1 "[007].a].[0].b\nc" cellPath rfl, rfl,
    path_text_round_trip.2.2 "[007].a].[0].b\nc" "[7].a]" cellPath _ rfl rfl⟩

end Dotpath
