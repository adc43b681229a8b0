/-!
# Cutting text at a separator

`splitOn sep` gives the stretches between separators, so a text without the separator is its own
only stretch. Results: joining the stretches gives the text back, no stretch holds the separator,
a text is cut at each separator on its own, and stretches without it are what their join is split
into.
-/

namespace Dotpath.Text

/-- The stretches of `cs` between the separators, the empty ones included. -/
def splitOn (sep : Char) : List Char → List (List Char)
  | [] => [[]]
  | c :: cs =>
    if c = sep then [] :: splitOn sep cs
    else match splitOn sep cs with
      | [] => [[c]]
      | word :: words => (c :: word) :: words

/-- Puts one separator between neighbours. -/
def joinWith (sep : Char) : List (List Char) → List Char
  | [] => []
  | [word] => word
  | word :: words => word ++ sep :: joinWith sep words

theorem splitOn_ne_nil (sep : Char) (cs : List Char) : splitOn sep cs ≠ [] := by
  cases cs with
  | nil => simp [splitOn]
  | cons c cs => rw [splitOn]; split <;> (try split) <;> simp

theorem joinWith_cons_cons (sep : Char) (c : Char) (word : List Char) (words : List (List Char)) :
    joinWith sep ((c :: word) :: words) = c :: joinWith sep (word :: words) := by
  cases words <;> simp [joinWith]

theorem joinWith_cons {sep : Char} {words : List (List Char)} (h : words ≠ [])
    (word : List Char) : joinWith sep (word :: words) = word ++ sep :: joinWith sep words := by
  cases words with
  | nil => exact absurd rfl h
  | cons next words => rfl

/-- A word at the end stands behind one more separator. -/
theorem joinWith_concat {sep : Char} {words : List (List Char)} (h : words ≠ [])
    (word : List Char) :
    joinWith sep (words ++ [word]) = joinWith sep words ++ sep :: word := by
  induction words with
  | nil => exact absurd rfl h
  | cons first words ih =>
    cases words with
    | nil => rfl
    | cons next words =>
      have hne : next :: words ≠ [] := List.cons_ne_nil next words
      rw [List.cons_append, joinWith_cons (by simp), ih hne, joinWith_cons hne]
      simp

/-- What is put behind the last word is put behind the whole text. -/
theorem joinWith_concat_append (sep : Char) (words : List (List Char)) (word more : List Char) :
    joinWith sep (words ++ [word ++ more]) = joinWith sep (words ++ [word]) ++ more := by
  cases words with
  | nil => rfl
  | cons first words =>
    have hne : first :: words ≠ [] := List.cons_ne_nil first words
    rw [joinWith_concat hne, joinWith_concat hne]
    simp

theorem mem_joinWith {sep : Char} {words : List (List Char)} {word : List Char} {c : Char}
    (hword : word ∈ words) (hc : c ∈ word) : c ∈ joinWith sep words := by
  induction words with
  | nil => exact absurd hword List.not_mem_nil
  | cons first words ih =>
    cases words with
    | nil =>
      obtain rfl := List.mem_singleton.1 hword
      exact hc
    | cons next words =>
      rw [joinWith_cons (List.cons_ne_nil next words)]
      rcases List.mem_cons.1 hword with rfl | hword
      · exact List.mem_append_left _ hc
      · exact List.mem_append_right _ (List.mem_cons_of_mem _ (ih hword))

theorem joinWith_splitOn (sep : Char) (cs : List Char) : joinWith sep (splitOn sep cs) = cs := by
  induction cs with
  | nil => rfl
  | cons c cs ih =>
    rw [splitOn]
    split
    · next h =>
      subst h
      cases hs : splitOn c cs with
      | nil => exact absurd hs (splitOn_ne_nil c cs)
      | cons word words => rw [hs] at ih; simp [joinWith, ih]
    · cases hs : splitOn sep cs with
      | nil => exact absurd hs (splitOn_ne_nil sep cs)
      | cons word words => rw [hs] at ih; simp only [joinWith_cons_cons, ih]

theorem not_mem_of_mem_splitOn {sep : Char} {cs word : List Char} (h : word ∈ splitOn sep cs) :
    sep ∉ word := by
  induction cs generalizing word with
  | nil => simp [splitOn] at h; simp [h]
  | cons c cs ih =>
    rw [splitOn] at h
    split at h
    · rcases List.mem_cons.1 h with rfl | h
      · simp
      · exact ih h
    · next hc =>
      cases hs : splitOn sep cs with
      | nil => exact absurd hs (splitOn_ne_nil sep cs)
      | cons first words =>
        rw [hs] at h ih
        rcases List.mem_cons.1 h with rfl | h
        · have := ih (List.mem_cons_self ..)
          simp only [List.mem_cons, not_or]
          exact ⟨fun e => hc e.symm, this⟩
        · exact ih (List.mem_cons_of_mem _ h)

theorem splitOn_of_not_mem {sep : Char} {cs : List Char} (h : sep ∉ cs) :
    splitOn sep cs = [cs] := by
  induction cs with
  | nil => rfl
  | cons c cs ih =>
    rw [List.mem_cons, not_or] at h
    rw [splitOn, if_neg (Ne.symm h.1), ih h.2]

theorem splitOn_append (sep : Char) (cs more : List Char) :
    splitOn sep (cs ++ sep :: more) = splitOn sep cs ++ splitOn sep more := by
  induction cs with
  | nil => simp [splitOn]
  | cons c cs ih =>
    rw [List.cons_append, splitOn, ih, splitOn]
    split
    · rfl
    · cases h : splitOn sep cs with
      | nil => exact absurd h (splitOn_ne_nil sep cs)
      | cons word words => rfl

theorem splitOn_append_sep {sep : Char} {word : List Char} (h : sep ∉ word) (cs : List Char) :
    splitOn sep (word ++ sep :: cs) = word :: splitOn sep cs := by
  rw [splitOn_append, splitOn_of_not_mem h, List.singleton_append]

theorem splitOn_joinWith {sep : Char} {words : List (List Char)} (hne : words ≠ [])
    (h : ∀ word ∈ words, sep ∉ word) : splitOn sep (joinWith sep words) = words := by
  induction words with
  | nil => exact absurd rfl hne
  | cons word words ih =>
    have hword := h word (List.mem_cons_self ..)
    cases words with
    | nil => exact splitOn_of_not_mem hword
    | cons next words =>
      rw [joinWith, splitOn_append_sep hword, ih (List.cons_ne_nil next words)
        fun w hw => h w (List.mem_cons_of_mem _ hw)]
      exact List.cons_ne_nil next words

end Dotpath.Text
