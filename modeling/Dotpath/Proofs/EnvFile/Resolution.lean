import Dotpath.Proofs.EnvFile.Expansion
import Dotpath.Proofs.EnvFile.Loading

/-!
# What names stand for

Values are expanded while a file is read, before any of its entries is in the environment. Yet a
name stands for what its variable is worth once the file has been taken in, unless the file defines
it again later.

Results:
1. `expanded_in_one_pass`: what one value expands to, and when it can be expanded.
2. `resolve_of_settled`, `resolve_of_unseen`: a name that no later entry defines, and one that
   nothing has defined so far.
3. `names_stand_for_the_end`: the names in the values of a file.
-/

namespace Dotpath

namespace EnvFile

theorem resolve_eq (env : Env) (earlier : Dict String) (name : List Char) :
    resolve env earlier name
      = (((env.find? (.ofList name)).or (earlier.find? (.ofList name))).getD "").toList := by
  rw [resolve]
  cases env.find? (.ofList name) <;> rfl

/-- A name that no entry from here on defines is worth now what it is worth at the end. -/
theorem resolve_of_settled {env : Env} {earlier values : Dict String}
    {rest : List (String × List Char)} (h : expandEntries env earlier rest = .ok values)
    {name : List Char} (hrest : ∀ entry ∈ rest, entry.1 ≠ .ofList name) (path : String) :
    resolve env earlier name
      = (((apply path env values).1.find? (.ofList name)).getD "").toList := by
  rw [resolve, find?_apply, find?_of_expandEntries_other h hrest]
  cases env.find? (.ofList name) with
  | some value => rfl
  | none => rfl

theorem resolve_of_unseen {env : Env} {earlier : Dict String}
    {before : List (String × List Char)} (h : expandEntries env {} before = .ok earlier)
    {name : List Char} (hname : env.find? (.ofList name) = none)
    (hbefore : ∀ entry ∈ before, entry.1 ≠ .ofList name) : resolve env earlier name = [] := by
  rw [resolve, hname, find?_of_expandEntries_other h hbefore]
  rfl

/-- The value of every entry is made of pieces, and a name in it is replaced by what it is worth in
`after` if neither this entry nor a later one defines it, and by nothing if it is no variable and no
earlier entry defines it. -/
def Foresees (env : Env) (entries : List (String × List Char)) (after : Env) : Prop :=
  ∀ before key marked later, entries = before ++ (key, marked) :: later →
    ∃ earlier pieces, expandEntries env {} before = .ok earlier ∧ Splits marked pieces ∧
      expand (resolve env earlier) marked
        = .ok (pieces.flatMap (·.shown (resolve env earlier))) ∧
      ∀ name, (∃ piece ∈ pieces, piece.name? = some name) →
        ((∀ entry ∈ (key, marked) :: later, entry.1 ≠ .ofList name) →
          resolve env earlier name = ((after.find? (.ofList name)).getD "").toList) ∧
        (env.find? (.ofList name) = none → (∀ entry ∈ before, entry.1 ≠ .ofList name) →
          resolve env earlier name = [])

theorem foresees_apply {env : Env} {entries : List (String × List Char)} {values : Dict String}
    (h : expandEntries env {} entries = .ok values) (path : String) :
    Foresees env entries (apply path env values).1 := by
  rintro before key marked later rfl
  obtain ⟨earlier, hbefore, hrest⟩ := expandEntries_append_eq_ok.1 h
  obtain ⟨value, hvalue, -⟩ := expandEntries_cons_eq_ok.1 hrest
  obtain ⟨pieces, hpieces, rfl⟩ := expand_eq_ok.1 hvalue
  refine ⟨earlier, pieces, hbefore, hpieces, hvalue, fun name _ => ⟨fun hlater => ?_, ?_⟩⟩
  · exact resolve_of_settled hrest hlater path
  · exact resolve_of_unseen hbefore

end EnvFile

open EnvFile

/-- A marked value is expanded in one pass from left to right: the result is the text of its plain
pieces, of its names (that of the variable, else that of the earlier entry, else none) and a dollar
sign for every mark without a name, whatever these texts hold. It can be expanded if and only if it
is made of pieces, and so it is unless a mark opens a brace outside them that is never closed. -/
theorem expanded_in_one_pass (env : Env) (earlier : Dict String) (value : List Char) :
    (∀ out, expand (resolve env earlier) value = .ok out ↔
      ∃ pieces, Splits value pieces ∧ out = pieces.flatMap (·.shown fun name =>
        (((env.find? (.ofList name)).or (earlier.find? (.ofList name))).getD "").toList)) ∧
    ((∃ fault, expand (resolve env earlier) value = .error fault)
      ↔ ¬∃ pieces, Splits value pieces) ∧
    ((¬∃ pieces, Splits value pieces) ↔ IsLeftOpen value) := by
  have hlookup := funext (resolve_eq env earlier)
  refine ⟨fun out => ?_, exists_expand_error_iff, not_splits_iff⟩
  rw [← hlookup]
  exact expand_eq_ok

/-- The variable holds a dollar sign, a mark and an opening brace, and none of them is looked at. -/
example :
    expand (resolve (.ofList [("A", "$\ue000\x7b")]) (.ofList [("A", "late"), ("b \ue000", "B")]))
      "\ue000A-\ue000\x7bb \ue000\x7d\ue000\ue000C".toList = .ok "$\ue000\x7b-B$".toList := by
  decide +kernel

/-- The names in an env file stand for what the environment holds once the file has been taken in,
unless they are defined again further on. The reader of the entries can be any function of the
marked text. -/
theorem names_stand_for_the_end {reader : List Char → Reading} {files : Files} {path : String}
    {env after : Env} {report : EnvReport}
    (h : load reader files path env = (after, .ok report)) :
    ∃ bytes text, files.readBytes path = .ok bytes ∧ Text.decodeUtf8 bytes = .ok text ∧
      (reader (markAll text)).fault = none ∧
      Foresees env (reader (markAll text)).entries after := by
  obtain ⟨bytes, text, values, hbytes, -, htext, hfault, hvalues, happly⟩ := load_eq_ok_iff.1 h
  have hforesees := foresees_apply hvalues path
  rw [happly] at hforesees
  exact ⟨bytes, text, hbytes, htext, hfault, hforesees⟩

/-- An env file that names a variable of the shell, earlier and later keys, and a key in its own
value. -/
def dataFiles : Files :=
  .ofEntries [([".env".toList], .file (Files.bytesOf
    "LATER=$NEXT.\nBASE=/srv\nHOME=/file\nDATA=${BASE}$HOME\nDATA=$DATA/x\nNEXT=n\n"))]

def dataEnv : Env :=
  .ofList [("HOME", "/h")]

def dataAfter : Env :=
  .ofList [("BASE", "/srv"), ("DATA", "/srv/h/x"), ("HOME", "/h"), ("LATER", "."), ("NEXT", "n")]

theorem names_stand_for_the_end_data :
    load (read {}) dataFiles ".env" dataEnv
      = (dataAfter, .ok ⟨".env", ["BASE", "DATA", "LATER", "NEXT"], ["HOME"]⟩) ∧
    ∃ bytes text, dataFiles.readBytes ".env" = .ok bytes ∧ Text.decodeUtf8 bytes = .ok text ∧
      (read {} (markAll text)).fault = none ∧
      Foresees dataEnv (read {} (markAll text)).entries dataAfter := by
  have hload : load (read {}) dataFiles ".env" dataEnv
      = (dataAfter, .ok ⟨".env", ["BASE", "DATA", "LATER", "NEXT"], ["HOME"]⟩) := by
    decide +kernel
  exact ⟨hload, names_stand_for_the_end hload⟩

end Dotpath
