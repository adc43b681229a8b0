import Dotpath.Proofs.Dict
import Dotpath.Proofs.Env.SearchList

/-!
# Environments in layers

An environment laid over another hides its values, except that two search lists are joined, unless
the lower one is the empty text.

Results:
1. `find?_merge`: a variable depends on its values in the two layers only.
2. `merge_laidOver`: which variables there are, and what they are worth.
3. `merge_assoc`: several layers can be merged in any grouping.
-/

namespace Dotpath

open SearchList

/-! ## One variable -/

namespace Env

/-- The value of a variable with one value, if any, laid over another. -/
def layered (key : String) : Option String → Option String → Option String
  | some high, some low => some (if key = "PATH" ∧ low ≠ "" then join high low else high)
  | high, low => high.or low

theorem find?_merge (overlay base : Env) (key : String) :
    (merge overlay base).find? key = layered key (overlay.find? key) (base.find? key) := by
  rw [merge, Dict.find?_foldl_insert overlay.sorted (mergeValue base)]
  change ((overlay.find? key).map _).or (base.find? key) = _
  cases hhigh : overlay.find? key with
  | none => rfl
  | some high =>
    rw [Option.map_some, Option.some_or, mergeValue]
    cases base.find? key <;> rfl

theorem isSome_layered (key : String) (high low : Option String) :
    (layered key high low).isSome = (high.isSome || low.isSome) := by
  cases high <;> cases low <;> rfl

theorem layered_of_ne {key : String} (h : key ≠ "PATH") (high low : Option String) :
    layered key high low = high.or low := by
  cases high <;> cases low <;> simp [layered, h]

theorem layered_of_hidden {high low : Option String} (key : String)
    (h : high = none ∨ low = none ∨ low = some "") : layered key high low = high.or low := by
  rcases h with rfl | rfl | rfl
  · cases low <;> rfl
  · cases high <;> rfl
  · cases high <;> simp [layered]

theorem layered_path {high low : String} (h : low ≠ "") :
    layered "PATH" (some high) (some low) = some (join high low) := by
  rw [layered, if_pos ⟨rfl, h⟩]

end Env

/-! ## All variables -/

namespace SearchList

/-- The search list of two layers: it names every directory of either once, under its first name,
and those of the upper layer before those that only the lower one has. -/
structure Joined (high low list : String) : Prop where
  /-- There are no empty entries. -/
  entries : list = .ofList (Text.joinWith ':' (directories list.toList))
  firsts : FirstSpellings (directories high.toList ++ directories low.toList)
    (directories list.toList)
  upper_first : ∃ upper lower, directories list.toList = upper ++ lower ∧
    (∀ name ∈ upper, Names (directories high.toList) name) ∧
    ∀ name ∈ lower, ¬Names (directories high.toList) name

theorem joined_join (high low : String) : Joined high low (join high low) where
  entries := by rw [directories_join, join]
  firsts := by
    rw [directories_join]
    exact firstSpellings_distinct _
  upper_first := by
    refine ⟨distinct [] (directories high.toList),
      distinct (directories high.toList) (directories low.toList), ?_, fun name hname => ?_,
      fun name hname => not_names_of_mem_distinct hname⟩
    · rw [directories_join, distinct_append, List.append_nil]
    · exact names_self ((distinct_sublist _).subset hname)

end SearchList

namespace Env

/-- What becomes of two environments when one is laid over the other. -/
structure LaidOver (overlay base merged : Env) : Prop where
  contains_iff : ∀ key, merged.contains key ↔ overlay.contains key ∨ base.contains key
  upper_wins : ∀ key, key ≠ "PATH" → merged.find? key = (overlay.find? key).or (base.find? key)
  /-- A search list without another to join is a value like any other. -/
  alone : overlay.find? "PATH" = none ∨ base.find? "PATH" = none ∨ base.find? "PATH" = some "" →
    merged.find? "PATH" = (overlay.find? "PATH").or (base.find? "PATH")
  joined : ∀ high low, overlay.find? "PATH" = some high → base.find? "PATH" = some low →
    low ≠ "" → ∃ list, merged.find? "PATH" = some list ∧ Joined high low list

theorem merge_laidOver (overlay base : Env) : LaidOver overlay base (merge overlay base) where
  contains_iff key := by
    rw [Dict.contains, find?_merge, isSome_layered, Bool.or_eq_true]
    rfl
  upper_wins key hkey := by rw [find?_merge, layered_of_ne hkey]
  alone h := by rw [find?_merge, layered_of_hidden "PATH" h]
  joined high low hhigh hlow hne :=
    ⟨join high low, by rw [find?_merge, hhigh, hlow, layered_path hne], joined_join high low⟩

def shellLayer : Env :=
  .ofList [("LANG", ""), ("PATH", "/tools/bin/:.::/usr//bin"), ("USER", "u")]

def systemLayer : Env :=
  .ofList [("HOME", "/h"), ("LANG", "C"), ("PATH", "/usr/bin:/tools/./bin:/bin:")]

theorem merge_laidOver_shell :
    merge shellLayer systemLayer = .ofList [("HOME", "/h"), ("LANG", ""),
      ("PATH", "/tools/bin/:.:/usr//bin:/bin"), ("USER", "u")] ∧
    LaidOver shellLayer systemLayer (merge shellLayer systemLayer) :=
  ⟨by decide +kernel, merge_laidOver shellLayer systemLayer⟩

/-! ## More than two layers -/

theorem ne_empty_of_directories {list : String} (h : directories list.toList ≠ []) : list ≠ "" := by
  rintro rfl
  exact h rfl

/-- A joined list names a directory if one of the two lists does. -/
theorem directories_join_ne_nil {low : String} (h : directories low.toList ≠ []) (high : String) :
    directories (join high low).toList ≠ [] := by
  obtain ⟨name, hname⟩ := List.exists_mem_of_ne_nil _ h
  have hnames : Names (directories (join high low).toList) name := by
    rw [directories_join, names_distinct]
    exact names_append.2 (.inr (names_self hname))
  obtain ⟨kept, hkept, -⟩ := hnames
  exact List.ne_nil_of_mem hkept

theorem layered_assoc {key : String} {c : Option String}
    (h : ∀ list, key = "PATH" → c = some list → directories list.toList ≠ [])
    (a b : Option String) :
    layered key a (layered key b c) = layered key (layered key a b) c := by
  by_cases hkey : key = "PATH"
  · subst hkey
    cases c with
    | none => cases a <;> cases b <;> rfl
    | some low =>
      have hlow := h low rfl rfl
      have hne := ne_empty_of_directories hlow
      cases b with
      | none => cases a <;> rfl
      | some middle =>
        have hjoin := ne_empty_of_directories (directories_join_ne_nil hlow middle)
        rw [layered_path hne]
        cases a with
        | none => exact (layered_path hne).symm
        | some high =>
          rw [layered_path hjoin]
          by_cases hmiddle : middle = ""
          · subst hmiddle
            rw [layered_of_hidden "PATH" (.inr (.inr rfl)), Option.some_or, layered_path hne,
              join_assoc, join_join_empty]
          · rw [layered_path hmiddle, layered_path hne, join_assoc]
  · simp only [layered_of_ne hkey, Option.or_assoc]

/-- Several layers can be merged in any grouping, if the search list of the lowest one, should it
have any, names a directory. The other search lists can be any texts. -/
theorem merge_assoc {c : Env}
    (h : ∀ list, c.find? "PATH" = some list → directories list.toList ≠ []) (a b : Env) :
    merge a (merge b c) = merge (merge a b) c := by
  refine Dict.ext_find? fun key => ?_
  simp only [find?_merge]
  refine layered_assoc (fun list hkey hlist => ?_) _ _
  subst hkey
  exact h list hlist

/-- A layer whose search list repeats a directory and has no other. -/
def fileLayer : Env :=
  .ofList [("PATH", "/bin:/bin/"), ("USER", "")]

theorem merge_assoc_shell :
    (∀ list, systemLayer.find? "PATH" = some list → directories list.toList ≠ []) ∧
    merge fileLayer (merge shellLayer systemLayer) = .ofList [("HOME", "/h"), ("LANG", ""),
      ("PATH", "/bin:/tools/bin/:.:/usr//bin"), ("USER", "")] ∧
    merge fileLayer (merge shellLayer systemLayer)
      = merge (merge fileLayer shellLayer) systemLayer := by
  have hlist : ∀ list, systemLayer.find? "PATH" = some list → directories list.toList ≠ [] := by
    intro list hlist
    obtain rfl : "/usr/bin:/tools/./bin:/bin:" = list := by
      rw [← Option.some_inj, ← hlist]
      decide +kernel
    decide
  exact ⟨hlist, by decide +kernel, merge_assoc hlist fileLayer shellLayer⟩

end Env

end Dotpath
