import Dotpath.Config.Edit
import Dotpath.Proofs.Access.ReadWrite
import Dotpath.Proofs.Flat.Query
import Dotpath.Proofs.Path.Render

/-!
# Runs of edits on one text

An edit that succeeds replaces the text, and one that fails leaves it. If the documents written on
the way are read back as they were, the text is at every moment that of a configuration in which
each edit is found until a later one comes in its way.

Results:
1. `setInDocument_eq_ok`, `patched_eq_ok`: when an edit succeeds, and what document it writes.
2. `faithful_apply`: one more edit keeps what a history promises.
3. `edits_read_back`: what a run of edits comes to.
-/

namespace Dotpath

/-- A place and the raw text to set there. -/
structure Edit where
  place : String
  raw : String
deriving DecidableEq, Repr

/-- A text with the edits that have gone into it, the latest first. -/
structure History where
  content : Option String
  applied : List Edit
deriving DecidableEq, Repr

/-- Two places whose paths part into different fields or different positions of one container. -/
def Diverge (place other : String) : Prop :=
  ∃ shared accessor accessor' rest rest',
    Path.parse place = .ok (shared ++ accessor :: rest) ∧
    Path.parse other = .ok (shared ++ accessor' :: rest') ∧ accessor.Apart accessor'

theorem diverge_of_fields {place other name name' : String} {rest rest' : Path}
    (h : Path.parse place = .ok (.field name :: rest))
    (h' : Path.parse other = .ok (.field name' :: rest')) (hne : name ≠ name') :
    Diverge place other :=
  ⟨[], .field name, .field name', rest, rest', h, h', by simpa using hne, rfl⟩

/-- What is written of a document is read as that document. -/
def Yaml.ReadsBack (document : Yaml) : Prop :=
  ∀ text, document.write = .ok text → Yaml.parse? text = some document

instance (document : Yaml) : Decidable document.ReadsBack :=
  inferInstanceAs (Decidable (∀ _, _ → _))

namespace Config

/-! ## One edit -/

theorem editable_eq_ok {path text : String} {document : Yaml} :
    editable path (some text) = .ok document ↔ ∃ original, Yaml.parse? text = some original ∧
      document = if original.kind = .null then .mapping [] else original := by
  rw [editable]
  cases Yaml.parse? text <;> simp [eq_comm]

theorem patched_eq_ok {content : Option String} {place raw path : String} {document : Yaml} :
    patched content place raw path = .ok document ↔ ∃ steps base, Path.parse place = .ok steps ∧
      editable path content = .ok base ∧ document = Path.set steps base (rawValue raw) := by
  rw [patched]
  cases Path.parse place with
  | error fault => simp
  | ok steps =>
    dsimp only
    rw [bind_eq_ok]
    simp [pure, Except.pure, eq_comm]

theorem writeDocument_eq_ok {path text : String} {document : Yaml} :
    writeDocument path document = .ok text
      ↔ document.write = .ok text ∧ ∃ config, ofText path text = .ok config := by
  rw [writeDocument]
  cases document.write with
  | error fault => simp
  | ok written =>
    dsimp only
    cases hload : ofText path written with
    | error fault =>
      simp only [Except.map, reduceCtorEq, false_iff, Except.ok.injEq]
      rintro ⟨rfl, config, hconfig⟩
      rw [hload] at hconfig
      exact nomatch hconfig
    | ok config =>
      simp only [Except.map, Except.ok.injEq]
      exact ⟨fun h => ⟨h, config, h ▸ hload⟩, fun h => h.1⟩

/-- A successful edit has written a document whose text loads. -/
theorem setInDocument_eq_ok {content : Option String} {place raw path text : String} :
    setInDocument content place raw path = .ok text ↔
      ∃ document, patched content place raw path = .ok document ∧ document.write = .ok text ∧
        ∃ config, ofText path text = .ok config := by
  rw [setInDocument, bind_eq_ok]
  simp only [writeDocument_eq_ok]

/-! ## Reads around an edit -/

theorem kind_ne_null_of_getAt {document value : Yaml} {place : String}
    (h : getAt document place = .ok value) : document.kind ≠ .null := by
  intro hnull
  obtain ⟨path, hpath, hget⟩ := getAt_eq_ok.1 h
  obtain ⟨accessor, rest, rfl⟩ := List.exists_cons_of_ne_nil (Path.spellable_of_parse hpath).1
  have hkind : Node.kind document ≠ accessor.container := by
    cases accessor <;> simp [Node.kind, hnull, Accessor.container]
  rw [Path.get, Path.getFrom_cons, Path.step_of_kind_ne hkind] at hget
  cases hget

/-- An edit starts from the document that was read, where anything can be read from it. -/
theorem getAt_editable {path text place : String} {original base value : Yaml}
    (hparse : Yaml.parse? text = some original) (hbase : editable path (some text) = .ok base)
    (h : getAt original place = .ok value) : getAt base place = .ok value := by
  obtain ⟨original', hparse', rfl⟩ := editable_eq_ok.1 hbase
  obtain rfl := Option.some.inj (hparse.symm.trans hparse')
  rwa [if_neg (kind_ne_null_of_getAt h)]

theorem getAt_patched_self {content : Option String} {place raw path : String} {document : Yaml}
    (h : patched content place raw path = .ok document) :
    getAt document place = .ok (rawValue raw) := by
  obtain ⟨steps, base, hsteps, -, rfl⟩ := patched_eq_ok.1 h
  exact getAt_eq_ok.2 ⟨steps, hsteps, Path.get_set_self steps base (rawValue raw)⟩

theorem getAt_patched_of_diverge {content : Option String} {place raw path other : String}
    {base document value : Yaml} (h : patched content place raw path = .ok document)
    (hbase : editable path content = .ok base) (hdiverge : Diverge other place)
    (hvalue : getAt base other = .ok value) : getAt document other = .ok value := by
  obtain ⟨steps, base', hsteps, hbase', rfl⟩ := patched_eq_ok.1 h
  obtain rfl := Except.ok.inj (hbase.symm.trans hbase')
  obtain ⟨shared, accessor, accessor', rest, rest', hother, hplace, hne, hcontainer⟩ := hdiverge
  obtain rfl := Except.ok.inj (hsteps.symm.trans hplace)
  obtain ⟨way, hway, hvalue⟩ := getAt_eq_ok.1 hvalue
  obtain rfl := Except.ok.inj (hother.symm.trans hway)
  have hapart := And.intro hne.symm hcontainer.symm
  exact getAt_eq_ok.2 ⟨_, hother, Path.get_set_of_apart hapart hvalue rest' (rawValue raw)⟩

/-- The configuration of an edited text has the document that was written. -/
theorem document_of_patched {content : Option String} {place raw path text : String}
    {document : Yaml} {config : Config} (h : patched content place raw path = .ok document)
    (hparse : Yaml.parse? text = some document) (hload : ofText path text = .ok config) :
    config.document = document := by
  have hnull := kind_ne_null_of_getAt (getAt_patched_self h)
  rw [ofText, hparse] at hload
  cases hkind : document.kind with
  | mapping => exact (ofDocument_mapping hload hkind).1
  | null => exact absurd hkind hnull
  | _ => simp [ofDocument, hkind] at hload

/-- What a configuration answers is what the next edit starts from. -/
theorem getAt_editable_of_query {path text place : String} {config : Config} {base value : Yaml}
    (hload : ofText path text = .ok config) (hbase : editable path (some text) = .ok base)
    (h : config.query place = .ok value) : getAt base place = .ok value := by
  obtain ⟨original, hparse, -⟩ := editable_eq_ok.1 hbase
  refine getAt_editable hparse hbase ?_
  have hnull := kind_ne_null_of_getAt h
  rw [ofText, hparse] at hload
  cases hkind : original.kind with
  | mapping => exact (ofDocument_mapping hload hkind).1 ▸ h
  | null =>
    simp only [ofDocument, hkind, Except.ok.injEq] at hload
    exact absurd rfl (hload ▸ hnull)
  | _ => simp [ofDocument, hkind] at hload

end Config

/-! ## Runs of edits -/

open Config

namespace Edit

/-- The history after an edit of the file `path`; an edit that fails is not in it. -/
def apply (path : String) (history : History) (edit : Edit) : History :=
  match setInDocument history.content edit.place edit.raw path with
  | .ok text => ⟨some text, edit :: history.applied⟩
  | .error _ => history

/-- The history of a run of edits that starts from a text or none. -/
def run (path : String) (start : Option String) (edits : List Edit) : History :=
  edits.foldl (apply path) ⟨start, []⟩

/-- Every document that a run of edits writes is read back. -/
def AllReadBack (path : String) (history : History) : List Edit → Prop
  | [] => True
  | edit :: rest =>
    (∀ document, patched history.content edit.place edit.raw path = .ok document →
      document.ReadsBack) ∧ AllReadBack path (edit.apply path history) rest

theorem AllReadBack.nil (path : String) (history : History) : AllReadBack path history [] :=
  trivial

theorem AllReadBack.cons {path : String} {history next : History} {edit : Edit} {rest : List Edit}
    (hnext : edit.apply path history = next)
    (hback : ∀ document, patched history.content edit.place edit.raw path = .ok document →
      document.ReadsBack)
    (hrest : AllReadBack path next rest) : AllReadBack path history (edit :: rest) :=
  ⟨hback, hnext ▸ hrest⟩

end Edit

/-- What the reads of an edited text find, `start` being the text before all edits. -/
structure Kept (start : Option String) (applied : List Edit)
    (read : String → Except AccessError Yaml) : Prop where
  /-- An edit is found unless a later one does not diverge from it. The last is always found. -/
  edits : ∀ later edit earlier, applied = later ++ edit :: earlier →
    (∀ other ∈ later, Diverge edit.place other.place) →
    read edit.place = .ok (rawValue edit.raw)
  /-- What was there is found if all edits diverge from it. -/
  original : ∀ text document place value, start = some text → Yaml.parse? text = some document →
    getAt document place = .ok value → (∀ edit ∈ applied, Diverge place edit.place) →
    read place = .ok value

/-- A history without edits has the text it started from. Once it has been edited, its text loads,
and reads of the configuration find the edits. -/
def Faithful (path : String) (start : Option String) (history : History) : Prop :=
  history.applied = [] ∧ history.content = start ∨
    ∃ text config, history.content = some text ∧ ofText path text = .ok config ∧
      Kept start history.applied config.query

theorem Kept.mono {start : Option String} {applied : List Edit}
    {read read' : String → Except AccessError Yaml} (h : Kept start applied read)
    (hread : ∀ place value, read place = .ok value → read' place = .ok value) :
    Kept start applied read' where
  edits later edit earlier happlied hlater := hread _ _ (h.edits later edit earlier happlied hlater)
  original text document place value hstart hparse hvalue hplace :=
    hread _ _ (h.original text document place value hstart hparse hvalue hplace)

/-- The reads of a document that one more edit has written. -/
theorem Kept.patched {start content : Option String} {applied : List Edit} {path : String}
    {base document : Yaml} {edit : Edit} (h : Kept start applied (getAt base))
    (hbase : editable path content = .ok base)
    (hpatched : Config.patched content edit.place edit.raw path = .ok document) :
    Kept start (edit :: applied) (getAt document) where
  edits later older earlier happlied hlater := by
    rcases List.cons_eq_append_iff.1 happlied with ⟨rfl, heq⟩ | ⟨later', rfl, happlied'⟩
    · obtain ⟨rfl, -⟩ := List.cons.inj heq
      exact getAt_patched_self hpatched
    · obtain ⟨hedit, hlater'⟩ := List.forall_mem_cons.1 hlater
      exact getAt_patched_of_diverge hpatched hbase hedit
        (h.edits later' older earlier happlied' hlater')
  original text first place value hstart hparse hvalue hplace := by
    obtain ⟨hedit, happlied⟩ := List.forall_mem_cons.1 hplace
    exact getAt_patched_of_diverge hpatched hbase hedit
      (h.original text first place value hstart hparse hvalue happlied)

/-- What a history promises holds of the document that the next edit starts from. -/
theorem Faithful.kept {path : String} {start : Option String} {history : History} {base : Yaml}
    (h : Faithful path start history) (hbase : editable path history.content = .ok base) :
    Kept start history.applied (getAt base) := by
  rcases h with ⟨happlied, hcontent⟩ | ⟨text, config, hcontent, hload, hkept⟩
  · rw [happlied]
    rw [hcontent] at hbase
    refine ⟨fun later edit earlier h => by simp at h, ?_⟩
    rintro text document place value rfl hparse hvalue -
    exact getAt_editable hparse hbase hvalue
  · rw [hcontent] at hbase
    exact hkept.mono fun place value => getAt_editable_of_query hload hbase

theorem faithful_apply {path : String} {start : Option String} {history : History} {edit : Edit}
    (h : Faithful path start history)
    (hback : ∀ document, Config.patched history.content edit.place edit.raw path = .ok document →
      document.ReadsBack) :
    Faithful path start (edit.apply path history) := by
  rw [Edit.apply]
  split
  · next text htext =>
    obtain ⟨document, hpatched, hwrite, config, hload⟩ := setInDocument_eq_ok.1 htext
    obtain ⟨-, base, -, hbase, -⟩ := patched_eq_ok.1 hpatched
    have hdocument := document_of_patched hpatched (hback document hpatched text hwrite) hload
    have hkept := (h.kept hbase).patched hbase hpatched
    rw [← hdocument] at hkept
    exact .inr ⟨text, config, rfl, hload, hkept⟩
  · exact h

theorem faithful_foldl_apply {path : String} {start : Option String} {history : History}
    (h : Faithful path start history) {edits : List Edit}
    (hback : Edit.AllReadBack path history edits) :
    Faithful path start (edits.foldl (Edit.apply path) history) := by
  induction edits generalizing history with
  | nil => exact h
  | cons edit rest ih =>
    obtain ⟨hedit, hrest⟩ := hback
    exact ih (faithful_apply h hedit) hrest

/-- What was set is what a reload reads. After any run of edits on any text or none, in which each
edit may have any place and raw text and may fail, the text loads as soon as one edit has succeeded.
The last one is found, and so is each earlier one from which all later ones diverge. What was
readable at the start is found too if all of them diverge from it. -/
theorem edits_read_back (path : String) (start : Option String) (edits : List Edit)
    (hback : Edit.AllReadBack path ⟨start, []⟩ edits) :
    Faithful path start (Edit.run path start edits) :=
  faithful_foldl_apply (.inl ⟨rfl, rfl⟩) hback

/-- A sequence and a tagged text. -/
def proxyText : String := "ports: [80]\nlog: !level info\n"

/-- The second of these fails, as it would make a sequence of the whole, and the last makes a
mapping of the sequence. -/
def proxyEdits : List Edit :=
  [⟨"strict", "TRUE"⟩, ⟨"[0]", "x"⟩, ⟨"ports.http", "80"⟩]

def proxyStricter : String := "ports:\n- 80\nlog: !level info\nstrict: true\n"

def proxyEdited : String := "ports:\n  http: 80\nlog: !level info\nstrict: true\n"

theorem edits_read_back_proxy :
    Edit.AllReadBack "proxy.yaml" ⟨some proxyText, []⟩ proxyEdits ∧
    (Edit.run "proxy.yaml" (some proxyText) proxyEdits).content = some proxyEdited ∧
    ∃ config, ofText "proxy.yaml" proxyEdited = .ok config ∧
      config.query "ports.http" = .ok (.number (.int 80)) ∧
      config.query "strict" = .ok (.bool true) ∧
      config.query "log" = .ok (.tagged ⟨"level"⟩ (.string "info")) := by
  have hstrict : Edit.apply "proxy.yaml" ⟨some proxyText, []⟩ ⟨"strict", "TRUE"⟩
      = ⟨some proxyStricter, [⟨"strict", "TRUE"⟩]⟩ := by decide +kernel
  have hwhole : Edit.apply "proxy.yaml" ⟨some proxyStricter, [⟨"strict", "TRUE"⟩]⟩ ⟨"[0]", "x"⟩
      = ⟨some proxyStricter, [⟨"strict", "TRUE"⟩]⟩ := by decide +kernel
  have hhttp : Edit.apply "proxy.yaml" ⟨some proxyStricter, [⟨"strict", "TRUE"⟩]⟩
        ⟨"ports.http", "80"⟩
      = ⟨some proxyEdited, [⟨"ports.http", "80"⟩, ⟨"strict", "TRUE"⟩]⟩ := by decide +kernel
  have hback : Edit.AllReadBack "proxy.yaml" ⟨some proxyText, []⟩ proxyEdits := by
    refine Edit.AllReadBack.cons hstrict (by decide +kernel) ?_
    refine Edit.AllReadBack.cons hwhole (by decide +kernel) ?_
    refine Edit.AllReadBack.cons hhttp (by decide +kernel) ?_
    exact Edit.AllReadBack.nil _ _
  have hrun : Edit.run "proxy.yaml" (some proxyText) proxyEdits
      = ⟨some proxyEdited, [⟨"ports.http", "80"⟩, ⟨"strict", "TRUE"⟩]⟩ := by
    rw [Edit.run, proxyEdits, List.foldl_cons, hstrict, List.foldl_cons, hwhole, List.foldl_cons,
      hhttp, List.foldl_nil]
  have h := edits_read_back "proxy.yaml" (some proxyText) proxyEdits hback
  rw [hrun] at h
  rcases h with ⟨hnone, -⟩ | ⟨text, config, htext, hload, hkept⟩
  · exact nomatch hnone
  · obtain rfl := Option.some.inj htext
    have hstrictPath : Path.parse "strict" = .ok [.field "strict"] := by decide +kernel
    have hhttpPath : Path.parse "ports.http" = .ok [.field "ports", .field "http"] := by
      decide +kernel
    have hlogPath : Path.parse "log" = .ok [.field "log"] := by decide +kernel
    refine ⟨hback, by rw [hrun], config, hload, ?_, ?_, ?_⟩
    · rw [show Yaml.number (.int 80) = rawValue "80" by decide +kernel]
      exact hkept.edits [] ⟨"ports.http", "80"⟩ [⟨"strict", "TRUE"⟩] rfl (by simp)
    · rw [show Yaml.bool true = rawValue "TRUE" by decide +kernel]
      refine hkept.edits [⟨"ports.http", "80"⟩] ⟨"strict", "TRUE"⟩ [] rfl ?_
      simpa using diverge_of_fields hstrictPath hhttpPath (by decide)
    · refine hkept.original proxyText (.mapping [(.string "ports", .sequence [.number (.int 80)]),
        (.string "log", .tagged ⟨"level"⟩ (.string "info"))]) "log" _ rfl (by decide +kernel)
        (by decide +kernel) ?_
      simpa using ⟨diverge_of_fields hlogPath hhttpPath (by decide),
        diverge_of_fields hlogPath hstrictPath (by decide)⟩

end Dotpath
