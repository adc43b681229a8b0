import Dotpath.Env.Merge
import Mathlib.Data.List.Induction
import Mathlib.Tactic.Tauto

/-!
# Search lists joined

A search list names directories, and two names can stand for one directory. Joining two lists keeps
the first name of each directory, in the order of the first names.

Results:
1. `sameDirectory_append`: slashes and points that do not matter.
2. `firstSpellings_distinct`: which names of a list are kept, and in which order.
3. `directories_join`: the joined text is cut into the names that have been kept.
4. `join_assoc`: three lists can be joined in either grouping.
-/

namespace Dotpath.SearchList

variable {seen : List (List Char)}

theorem sameDirectory_iff {a b : List Char} : sameDirectory a b ↔ parts a = parts b := by
  rw [sameDirectory, decide_eq_true_iff]

/-! ## The name of a directory -/

/-- What the pieces between the slashes start with. -/
def start : List (List Char) → List Part
  | [] :: _ :: _ => [.root]
  | ['.'] :: _ => [.here]
  | _ => []

/-- The parts that a name adds below a directory. -/
def below (name : List Char) : List Part :=
  ((Text.splitOn '/' name).filter fun piece => !piece.isEmpty && piece ≠ ['.']).map .name

theorem parts_eq (directory : List Char) :
    parts directory = start (Text.splitOn '/' directory) ++ below directory := by
  unfold parts below
  generalize Text.splitOn '/' directory = pieces
  dsimp only
  split <;> simp [start, *]

theorem start_append {pieces : List (List Char)} (hne : pieces ≠ []) (hnamed : pieces ≠ [[]])
    (more : List (List Char)) : start (pieces ++ more) = start pieces := by
  match pieces with
  | [[]] => exact absurd rfl hnamed
  | [] :: _ :: _ => rfl
  | (c :: cs) :: _ =>
    by_cases hdot : c :: cs = ['.']
    · rw [hdot]
      rfl
    · simp [start, hdot]

theorem splitOn_ne_singleton {directory : List Char} (h : directory ≠ []) :
    Text.splitOn '/' directory ≠ [[]] := by
  intro hsplit
  rw [← Text.joinWith_splitOn '/' directory, hsplit] at h
  exact h rfl

theorem parts_append_slash {directory : List Char} (h : directory ≠ []) (name : List Char) :
    parts (directory ++ '/' :: name) = parts directory ++ below name := by
  rw [parts_eq, parts_eq, below, Text.splitOn_append,
    start_append (Text.splitOn_ne_nil '/' directory) (splitOn_ne_singleton h), List.filter_append,
    List.map_append, List.append_assoc]
  rfl

/-- The name of a directory may have a slash at its end, and repeated slashes and points inside. -/
theorem sameDirectory_append {directory : List Char} (h : directory ≠ []) (name : List Char) :
    sameDirectory (directory ++ ['/']) directory ∧
      sameDirectory (directory ++ '/' :: '/' :: name) (directory ++ '/' :: name) ∧
      sameDirectory (directory ++ '/' :: '.' :: '/' :: name) (directory ++ '/' :: name) := by
  simp only [sameDirectory_iff, parts_append_slash h]
  simp [below, Text.splitOn]

/-! ## Names for a directory -/

/-- One of the names stands for the directory. -/
def Names (listed : List (List Char)) (directory : List Char) : Prop :=
  ∃ name ∈ listed, sameDirectory name directory

theorem any_iff_names {directory : List Char} :
    seen.any (sameDirectory · directory) ↔ Names seen directory := by
  rw [List.any_eq_true, Names]

@[simp] theorem not_names_nil (directory : List Char) : ¬Names [] directory := by
  simp [Names]

@[simp] theorem names_cons {name directory : List Char} {listed : List (List Char)} :
    Names (name :: listed) directory ↔ sameDirectory name directory ∨ Names listed directory := by
  simp [Names]

@[simp] theorem names_append {front back : List (List Char)} {directory : List Char} :
    Names (front ++ back) directory ↔ Names front directory ∨ Names back directory := by
  simp [Names, or_and_right, exists_or]

theorem names_self {listed : List (List Char)} {directory : List Char} (h : directory ∈ listed) :
    Names listed directory :=
  ⟨directory, h, sameDirectory_iff.2 rfl⟩

theorem names_congr {listed : List (List Char)} {a b : List Char} (h : sameDirectory a b) :
    Names listed a ↔ Names listed b := by
  simp only [Names, sameDirectory_iff, sameDirectory_iff.1 h]

/-- Another name for a directory that has one adds nothing. -/
theorem names_cons_of_names {name : List Char} {listed : List (List Char)} (h : Names listed name)
    (directory : List Char) : Names (name :: listed) directory ↔ Names listed directory := by
  rw [names_cons]
  exact or_iff_right_of_imp fun hsame => (names_congr hsame).1 h

/-! ## What is kept -/

theorem distinct_cons_of_names {name : List Char} (h : Names seen name)
    (rest : List (List Char)) : distinct seen (name :: rest) = distinct seen rest := by
  rw [distinct, if_pos (any_iff_names.2 h)]

theorem distinct_cons_of_not_names {name : List Char} (h : ¬Names seen name)
    (rest : List (List Char)) :
    distinct seen (name :: rest) = name :: distinct (name :: seen) rest := by
  rw [distinct, if_neg (fun hany => h (any_iff_names.1 hany))]

/-- What is kept depends on which directories have been seen, and not on their names. -/
theorem distinct_congr {seen' : List (List Char)}
    (h : ∀ directory, Names seen directory ↔ Names seen' directory) (listed : List (List Char)) :
    distinct seen listed = distinct seen' listed := by
  induction listed generalizing seen seen' with
  | nil => rfl
  | cons name rest ih =>
    by_cases hseen : Names seen name
    · rw [distinct_cons_of_names hseen, distinct_cons_of_names ((h name).1 hseen), ih h]
    · have hseen' : ¬Names seen' name := fun hnames => hseen ((h name).2 hnames)
      rw [distinct_cons_of_not_names hseen, distinct_cons_of_not_names hseen']
      exact congrArg _ (ih fun directory => by rw [names_cons, names_cons, h])

theorem distinct_sublist (listed : List (List Char)) : (distinct seen listed).Sublist listed := by
  induction listed generalizing seen with
  | nil => exact List.Sublist.refl []
  | cons name rest ih =>
    by_cases hseen : Names seen name
    · rw [distinct_cons_of_names hseen]
      exact ih.cons name
    · rw [distinct_cons_of_not_names hseen]
      exact ih.cons_cons name

theorem not_names_of_mem_distinct {listed : List (List Char)} {name : List Char}
    (h : name ∈ distinct seen listed) : ¬Names seen name := by
  induction listed generalizing seen with
  | nil => exact absurd h List.not_mem_nil
  | cons head rest ih =>
    by_cases hseen : Names seen head
    · rw [distinct_cons_of_names hseen] at h
      exact ih h
    · rw [distinct_cons_of_not_names hseen] at h
      rcases List.mem_cons.1 h with rfl | hrest
      · exact hseen
      · exact fun hnames => ih hrest (names_cons.2 (.inr hnames))

/-- The directories of what is kept or has been seen are those of what is listed or has been
seen. -/
theorem names_distinct_append (listed : List (List Char)) (directory : List Char) :
    Names (distinct seen listed ++ seen) directory ↔ Names (listed ++ seen) directory := by
  induction listed generalizing seen with
  | nil => rfl
  | cons name rest ih =>
    by_cases hseen : Names seen name
    · have hlisted : Names (rest ++ seen) name := names_append.2 (.inr hseen)
      rw [distinct_cons_of_names hseen, ih, List.cons_append, names_cons_of_names hlisted]
    · have hrest := @ih (name :: seen)
      rw [distinct_cons_of_not_names hseen]
      simp only [List.cons_append, names_append, names_cons] at hrest ⊢
      tauto

theorem names_distinct (listed : List (List Char)) (directory : List Char) :
    Names (distinct [] listed) directory ↔ Names listed directory := by
  simpa using @names_distinct_append [] listed directory

/-- The back of a list is kept as far as the front has not named its directories. -/
theorem distinct_append (front back : List (List Char)) :
    distinct seen (front ++ back) = distinct seen front ++ distinct (front ++ seen) back := by
  induction front generalizing seen with
  | nil => rfl
  | cons name rest ih =>
    rw [List.cons_append]
    by_cases hseen : Names seen name
    · have hfront : Names (rest ++ seen) name := names_append.2 (.inr hseen)
      rw [distinct_cons_of_names hseen, distinct_cons_of_names hseen, ih]
      exact congrArg _ (distinct_congr (fun other => (names_cons_of_names hfront other).symm) back)
    · have hfront : ∀ other,
          Names (rest ++ name :: seen) other ↔ Names (name :: rest ++ seen) other := by
        intro other
        simp only [List.cons_append, names_append, names_cons]
        tauto
      rw [distinct_cons_of_not_names hseen, distinct_cons_of_not_names hseen, ih,
        distinct_congr hfront]
      rfl

/-! ## Keeping twice -/

/-- Of names that have been picked before, the same are kept as of the whole list. -/
theorem distinct_distinct {seen' : List (List Char)}
    (h : ∀ directory, Names seen' directory → Names seen directory) (listed : List (List Char)) :
    distinct seen (distinct seen' listed) = distinct seen listed := by
  induction listed generalizing seen seen' with
  | nil => rfl
  | cons name rest ih =>
    by_cases hseen : Names seen name
    · rw [distinct_cons_of_names hseen]
      by_cases hseen' : Names seen' name
      · rw [distinct_cons_of_names hseen', ih h]
      · rw [distinct_cons_of_not_names hseen', distinct_cons_of_names hseen]
        refine ih fun directory hnames => ?_
        rw [← names_cons_of_names hseen]
        exact names_cons.2 ((names_cons.1 hnames).imp_right (h directory))
    · have hseen' : ¬Names seen' name := fun hnames => hseen (h name hnames)
      rw [distinct_cons_of_not_names hseen, distinct_cons_of_not_names hseen',
        distinct_cons_of_not_names hseen]
      refine congrArg _ (ih fun directory hnames => ?_)
      exact names_cons.2 ((names_cons.1 hnames).imp_right (h directory))

theorem distinct_append_distinct (front back : List (List Char)) :
    distinct [] (front ++ distinct [] back) = distinct [] (front ++ back) := by
  rw [distinct_append, distinct_append, distinct_distinct (by simp)]

theorem distinct_distinct_append (front back : List (List Char)) :
    distinct [] (distinct [] front ++ back) = distinct [] (front ++ back) := by
  rw [distinct_append, distinct_append, distinct_distinct (by simp)]
  exact congrArg _ (distinct_congr (by simp [names_distinct]) back)

/-! ## First names -/

/-- Where the directory is named first. -/
def place (listed : List (List Char)) (directory : List Char) : Nat :=
  listed.findIdx (sameDirectory · directory)

/-- What is kept of a list of names: every directory once, under its first name, in the order of
the first names. -/
structure FirstSpellings (listed kept : List (List Char)) : Prop where
  /-- No two names stand for one directory. -/
  different : kept.Pairwise fun a b => ¬sameDirectory a b
  /-- The directories are those of the list. -/
  names_iff : ∀ directory, Names kept directory ↔ Names listed directory
  /-- A directory that is kept has its first name. -/
  first : ∀ name ∈ kept, listed.find? (sameDirectory · name) = some name
  ordered : kept.Pairwise fun a b => place listed a < place listed b

theorem place_lt {listed : List (List Char)} {directory : List Char} (h : Names listed directory) :
    place listed directory < listed.length :=
  List.findIdx_lt_length_of_exists h

theorem place_append_of_names {front : List (List Char)} {directory : List Char}
    (h : Names front directory) (back : List (List Char)) :
    place (front ++ back) directory = place front directory := by
  rw [place, List.findIdx_append]
  exact if_pos (place_lt h)

theorem length_le_place_append {front : List (List Char)} {directory : List Char}
    (h : ¬Names front directory) (back : List (List Char)) :
    front.length ≤ place (front ++ back) directory := by
  rw [place, List.findIdx_append, if_neg fun hlt => h (List.findIdx_lt_length.1 hlt)]
  exact Nat.le_add_left front.length _

theorem find?_eq_none_of_not_names {listed : List (List Char)} {directory : List Char}
    (h : ¬Names listed directory) : listed.find? (sameDirectory · directory) = none :=
  List.find?_eq_none.2 fun name hname hsame => h ⟨name, hname, hsame⟩

theorem FirstSpellings.concat_of_names {listed kept : List (List Char)}
    (h : FirstSpellings listed kept) {last : List Char} (hlast : Names listed last) :
    FirstSpellings (listed ++ [last]) kept where
  different := h.different
  names_iff directory := by
    rw [h.names_iff, names_append, names_cons]
    refine (or_iff_left_of_imp ?_).symm
    rintro (hsame | hnil)
    · exact (names_congr hsame).1 hlast
    · exact absurd hnil (not_names_nil directory)
  first name hname := by rw [List.find?_append, h.first name hname, Option.some_or]
  ordered := by
    refine h.ordered.imp_of_mem fun {a b} ha hb hlt => ?_
    rwa [place_append_of_names ((h.names_iff a).1 (names_self ha)),
      place_append_of_names ((h.names_iff b).1 (names_self hb))]

theorem FirstSpellings.concat_of_not_names {listed kept : List (List Char)}
    (h : FirstSpellings listed kept) {last : List Char} (hlast : ¬Names listed last) :
    FirstSpellings (listed ++ [last]) (kept ++ [last]) where
  different := by
    refine List.pairwise_append.2 ⟨h.different, List.pairwise_singleton .., fun a ha b hb => ?_⟩
    obtain rfl := List.mem_singleton.1 hb
    exact fun hsame => hlast ((h.names_iff b).1 ⟨a, ha, hsame⟩)
  names_iff directory := by rw [names_append, names_append, h.names_iff]
  first name hname := by
    rw [List.find?_append]
    rcases List.mem_append.1 hname with hkept | hnew
    · rw [h.first name hkept, Option.some_or]
    · obtain rfl := List.mem_singleton.1 hnew
      rw [find?_eq_none_of_not_names hlast, Option.none_or]
      exact List.find?_cons_of_pos (sameDirectory_iff.2 rfl)
  ordered := by
    have hplace : ∀ a ∈ kept, place (listed ++ [last]) a = place listed a :=
      fun a ha => place_append_of_names ((h.names_iff a).1 (names_self ha)) [last]
    refine List.pairwise_append.2 ⟨h.ordered.imp_of_mem fun {a b} ha hb hlt => ?_,
      List.pairwise_singleton .., fun a ha b hb => ?_⟩
    · rwa [hplace a ha, hplace b hb]
    · obtain rfl := List.mem_singleton.1 hb
      rw [hplace a ha]
      exact Nat.lt_of_lt_of_le (place_lt ((h.names_iff a).1 (names_self ha)))
        (length_le_place_append hlast [b])

theorem firstSpellings_distinct (listed : List (List Char)) :
    FirstSpellings listed (distinct [] listed) := by
  induction listed using List.reverseRecOn with
  | nil => exact ⟨.nil, fun _ => .rfl, nofun, .nil⟩
  | append_singleton listed last ih =>
    rw [distinct_append, List.append_nil]
    by_cases hlast : Names listed last
    · rw [distinct_cons_of_names hlast, distinct, List.append_nil]
      exact ih.concat_of_names hlast
    · rw [distinct_cons_of_not_names hlast, distinct]
      exact ih.concat_of_not_names hlast

/-! ## Lists as texts -/

theorem mem_directories {list name : List Char} :
    name ∈ directories list ↔ name ∈ Text.splitOn ':' list ∧ name ≠ [] := by
  simp [directories]

/-- Names are found again in the text that holds them between colons. -/
theorem directories_joinWith {kept : List (List Char)} (h : ∀ name ∈ kept, name ≠ [] ∧ ':' ∉ name) :
    directories (Text.joinWith ':' kept) = kept := by
  cases kept with
  | nil => rfl
  | cons first rest =>
    rw [directories, Text.splitOn_joinWith (List.cons_ne_nil first rest) fun name hname =>
      (h name hname).2]
    exact List.filter_eq_self.2 fun name hname => by simpa using (h name hname).1

theorem directories_join (high low : String) :
    directories (join high low).toList
      = distinct [] (directories high.toList ++ directories low.toList) := by
  rw [join, String.toList_ofList]
  refine directories_joinWith fun name hname => ?_
  rcases List.mem_append.1 ((distinct_sublist _).subset hname) with hhigh | hlow
  · exact ⟨(mem_directories.1 hhigh).2, Text.not_mem_of_mem_splitOn (mem_directories.1 hhigh).1⟩
  · exact ⟨(mem_directories.1 hlow).2, Text.not_mem_of_mem_splitOn (mem_directories.1 hlow).1⟩

theorem join_congr {high low high' low' : String}
    (h : distinct [] (directories high.toList ++ directories low.toList)
      = distinct [] (directories high'.toList ++ directories low'.toList)) :
    join high low = join high' low' := by
  rw [join, join, h]

/-- Three lists can be joined in either grouping. -/
theorem join_assoc (a b c : String) : join a (join b c) = join (join a b) c := by
  refine join_congr ?_
  rw [directories_join, directories_join, distinct_append_distinct, distinct_distinct_append,
    List.append_assoc]

/-- A list that is empty below another only drops repetitions. -/
theorem join_join_empty (a c : String) : join (join a "") c = join a c := by
  refine join_congr ?_
  rw [directories_join, distinct_distinct_append]
  simp [directories, Text.splitOn]

end Dotpath.SearchList
