import Dotpath.EnvFile
import Dotpath.Proofs.EnvFile.Values
import Dotpath.Proofs.Text.Utf8

/-!
# Env files and the process

The names of an env file stand for variables of the environment that it is taken into. Yet the
reader of its values looks names up in the process, and only marking keeps it from that. On orderly
texts it does.

Results:
1. `read_eq_of_orderly`: the process does not matter to what is read.
2. `load_eq_of_orderly`: nor does it to what a load comes to.
3. `load_reads_process`: it matters where marking finds a comment that is none.
-/

namespace Dotpath

namespace EnvFile

theorem quotesEnd_of_not_mem {text : List Char} (h : '\\' ∉ text) (state : MarkState) :
    quotesEnd state text = true := by
  induction text generalizing state with
  | nil => rfl
  | cons c cs ih =>
    rw [List.mem_cons, not_or] at h
    simp [quotesEnd, ih h.2, Ne.symm h.1]

theorem numberSignsClear_of_not_mem {line : List Char} (h : '#' ∉ line) (before : List Char) :
    numberSignsClear before line = true := by
  induction line generalizing before with
  | nil => rfl
  | cons c cs ih =>
    rw [List.mem_cons, not_or] at h
    simp [numberSignsClear, ih h.2, Ne.symm h.1]

/-- A text without number signs and backslashes is orderly, however it is quoted. -/
theorem orderly_of_not_mem {text : List Char} (hbackslash : '\\' ∉ text) (hnumber : '#' ∉ text) :
    Orderly text where
  quotes := quotesEnd_of_not_mem hbackslash .start
  comments line hline := by
    refine numberSignsClear_of_not_mem (fun hmem => hnumber ?_) []
    rw [← flatten_physicalLines text]
    exact List.mem_flatten.2 ⟨line, hline, hmem⟩

/-- What is read of a marked text, its faults included, is the same in every process. -/
theorem read_eq_of_orderly {text : List Char} (h : Orderly text) (process process' : Env) :
    read process (markAll text) = read process' (markAll text) :=
  entriesFrom_of_covered process process' fun _ hline => covered_lines h hline

/-- A faulty file, too, has the same fault in every process. -/
theorem definitionsOf_eq_of_orderly {bytes : List UInt8}
    (h : ∀ text, Text.decodeUtf8 bytes = .ok text → Orderly text) (process process' env : Env)
    (path : String) :
    definitionsOf (read process) path bytes env = definitionsOf (read process') path bytes env := by
  unfold definitionsOf
  cases htext : Text.decodeUtf8 bytes with
  | error fault => rfl
  | ok text =>
    dsimp only
    rw [definitions, definitions, read_eq_of_orderly (h text htext) process process']

end EnvFile

open EnvFile

/-- What a load comes to, the environment that it leaves behind and its report or fault, is the same
in every process. A file whose comments and quotes are plain to see has no other names looked up
than those that marking has found. -/
theorem load_eq_of_orderly {files : Files} {path : String}
    (h : ∀ bytes text, files.readBytes path = .ok bytes → Text.decodeUtf8 bytes = .ok text →
      Orderly text) (env process process' : Env) :
    load (read process) files path env = load (read process') files path env := by
  unfold load
  cases hbytes : files.readBytes path with
  | error fault => rfl
  | ok bytes =>
    dsimp only
    rw [definitionsOf_eq_of_orderly (h bytes · hbytes) process process']

/-- An env file with quotes, escapes and number signs around its dollar signs. -/
def quotingText : String :=
  "# it's $HOME\nexport A='$HOME #\"' # \"$B\nB=\"\\$A # ${HOME}\n\" # it's $C\nC=x#$A\\ $B"

def quotingFiles : Files :=
  .ofEntries [([".env".toList], .file (Files.bytesOf quotingText))]

def quotingEnv : Env :=
  .ofList [("HOME", "/virtual")]

def shellEnv : Env :=
  .ofList [("A", "a"), ("B", "b"), ("HOME", "/shell")]

theorem load_eq_of_orderly_quoting :
    quotingFiles.readBytes ".env" = .ok (Files.bytesOf quotingText) ∧ Orderly quotingText.toList ∧
    load (read shellEnv) quotingFiles ".env" quotingEnv
      = load (read {}) quotingFiles ".env" quotingEnv ∧
    (load (read {}) quotingFiles ".env" quotingEnv).1
      = .ofList [("A", "$HOME #\""), ("B", "$A # /virtual\n"),
          ("C", "x#$HOME #\" $A # /virtual\n"), ("HOME", "/virtual")] := by
  have hread : quotingFiles.readBytes ".env" = .ok (Files.bytesOf quotingText) := by decide +kernel
  have horderly : Orderly quotingText.toList := by decide +kernel
  refine ⟨hread, horderly, load_eq_of_orderly (fun bytes text hbytes htext => ?_) _ _ _,
    by decide +kernel⟩
  obtain rfl := Except.ok.inj (hread.symm.trans hbytes)
  rw [Text.decodeUtf8_bytesOf] at htext
  exact Except.ok.inj htext ▸ horderly

/-- The blank before the number sign is escaped, so that there is no comment. Marking finds one, and
leaves the name behind it to the process. -/
def escapedBlankFiles : Files :=
  .ofEntries [([".env".toList], .file (Files.bytesOf "A=\\ #$HOME\n"))]

theorem load_reads_process :
    load (read {}) escapedBlankFiles ".env" quotingEnv
      = (.ofList [("A", " #"), ("HOME", "/virtual")], .ok ⟨".env", ["A"], []⟩) ∧
    load (read shellEnv) escapedBlankFiles ".env" quotingEnv
      = (.ofList [("A", " #/shell"), ("HOME", "/virtual")], .ok ⟨".env", ["A"], []⟩) ∧
    load (read {}) escapedBlankFiles ".env" quotingEnv
      ≠ load (read shellEnv) escapedBlankFiles ".env" quotingEnv := by
  decide +kernel

end Dotpath
