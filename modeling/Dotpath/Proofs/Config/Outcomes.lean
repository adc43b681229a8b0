import Dotpath.Proofs.Access.Overwrite
import Dotpath.Proofs.Config.Edits
import Dotpath.Proofs.Config.RawValue
import Dotpath.Proofs.Flat.Guard
import Dotpath.Proofs.Node.Lookup
import Dotpath.Proofs.Node.Slot

/-!
# The outcome of one edit

An edit is judged by the text that it would leave behind: it is accepted if that text loads. So an
edit that makes a sequence of the whole document is refused, and so is one that leaves a suspect key
in the flat map, whether it has put it there or has only left it where it was. An edit whose path
starts with a name touches one entry at the top (`leavesBeside` lists the leaves of all others), and
of the keys without a dot it changes the value of that name alone.

Results:
1. `set_again`: an edit made twice leaves the text of the first time, byte for byte.
2. `find?_set_field`: what an edit leaves in the flat map, outside the entry that it touches.
3. `edit_outcome`: what an edit comes to, and when it is the entry touched that decides.
-/

namespace Dotpath

open Yaml FlatMap

/-! ## The same edit again -/

namespace Config

/-- An edit starts from the document that an earlier one has written, if that is read back. -/
theorem editable_of_parse? {path text : String} {document : Yaml}
    (hparse : Yaml.parse? text = some document) (hkind : document.kind ≠ .null) :
    editable path (some text) = .ok document :=
  editable_eq_ok.2 ⟨document, hparse, (if_neg hkind).symm⟩

/-- An edit that is made again finds its own text and leaves it as it is. -/
theorem set_again {content : Option String} {place raw path text : String}
    (hback : ∀ document, patched content place raw path = .ok document → document.ReadsBack)
    (h : setInDocument content place raw path = .ok text) :
    setInDocument (some text) place raw path = .ok text := by
  obtain ⟨document, hpatched, hwrite, hload⟩ := setInDocument_eq_ok.1 h
  have hparse : Yaml.parse? text = some document := hback document hpatched text hwrite
  have hkind : document.kind ≠ .null := kind_ne_null_of_getAt (getAt_patched_self hpatched)
  have hpatched' : patched (some text) place raw path = .ok document := by
    obtain ⟨steps, base, hsteps, -, rfl⟩ := patched_eq_ok.1 hpatched
    refine patched_eq_ok.2 ⟨steps, _, hsteps, editable_of_parse? hparse hkind, ?_⟩
    exact (Path.set_set steps base (rawValue raw) (rawValue raw)).symm
  exact setInDocument_eq_ok.2 ⟨document, hpatched', hwrite, hload⟩

/-- A tagged document with a number for a key. -/
def portText : String := "!conf\nports:\n  80: http\nlog: ~\n"

def portEdited : String := "ports:\n  80: HTTP\nlog: null\n"

theorem set_again_port :
    (∀ document, patched (some portText) "ports.80" "HTTP" "app.yaml" = .ok document →
      document.ReadsBack) ∧
    setInDocument (some portText) "ports.80" "HTTP" "app.yaml" = .ok portEdited ∧
    setInDocument (some portEdited) "ports.80" "HTTP" "app.yaml" = .ok portEdited := by
  have hback : ∀ document, patched (some portText) "ports.80" "HTTP" "app.yaml" = .ok document →
      document.ReadsBack := by decide +kernel
  have hset : setInDocument (some portText) "ports.80" "HTTP" "app.yaml" = .ok portEdited := by
    decide +kernel
  exact ⟨hback, hset, set_again hback hset⟩

end Config

/-! ## The entry that an edit touches -/

/-- A write of a field leaves all other entries in their order, and has its own entry among them,
where the one that the name addresses was before, if there was one. -/
theorem Yaml.exists_putEntry (name : String) (entries : List (Yaml × Yaml)) :
    ∃ before key after, key.keyText = name ∧
      entries.eraseIdx (slot entries name) = before ++ after ∧
      (entries = before ++ after ∨ ∃ value, entries = before ++ (key, value) :: after) ∧
      ∀ value, putEntry name value entries = before ++ (key, value) :: after := by
  rcases putEntry_cases name entries with
    ⟨before, entry, after, hsplit, hbefore, hentry, hput⟩ | ⟨hnone, hput⟩
  · refine ⟨before, entry.1, after, keyText_of_addresses hentry, ?_, .inr ⟨entry.2, hsplit⟩, hput⟩
    rw [slot_of_split hsplit hbefore hentry, hsplit,
      List.eraseIdx_append_of_length_le (Nat.le_refl _), Nat.sub_self, List.eraseIdx_cons_zero]
  · have hslot : slot entries name = entries.length := List.findIdx_eq_length.2 hnone
    refine ⟨entries, string name, [], rfl, ?_, .inl (List.append_nil _).symm, hput⟩
    rw [hslot, List.eraseIdx_of_length_le (Nat.le_refl _), List.append_nil]

namespace FlatMap

theorem leaves_of_dotless {name : String} {value : Yaml} (hname : name ≠ "")
    {leaf : String × Yaml} (h : leaf ∈ leaves name value) (hdotless : '.' ∉ leaf.1.toList) :
    leaf = (name, value) ∧ value.kind ≠ .mapping := by
  by_cases hkind : value.kind = .mapping
  · rw [leaves_eq_map_listing name value hkind] at h
    obtain ⟨inner, hinner, rfl⟩ := List.mem_map.1 h
    have hnames : inner.names ≠ [] := ((mem_listing value inner).1 hinner).names_ne_nil
    exact absurd (mem_foldl_join hname hnames) hdotless
  · rw [leaves_of_kind_ne hkind] at h
    exact ⟨List.mem_singleton.1 h, hkind⟩

/-- The leaves of all entries at the top but the one that `name` addresses. -/
def leavesBeside (name : String) (document : Yaml) : List (String × Yaml) :=
  match Node.asMapping document with
  | .mapping entries => leavesOf "" (entries.eraseIdx (slot entries name))
  | _ => []

theorem documentLeaves_asMapping (document : Yaml) :
    documentLeaves (Node.asMapping document) = documentLeaves document := by
  by_cases hkind : document.kind = .mapping
  · have hmapping : Node.asMapping document = document.untagged := if_pos hkind
    rw [hmapping, documentLeaves, documentLeaves, untagged_untagged]
  · rw [Node.asMapping_of_ne hkind, documentLeaves_eq document, if_neg hkind]
    rfl

theorem leavesOf_append (under : String) (before after : List (Yaml × Yaml)) :
    leavesOf under (before ++ after) = leavesOf under before ++ leavesOf under after := by
  rw [leavesOf_eq_flatMap, leavesOf_eq_flatMap, leavesOf_eq_flatMap, List.flatMap_append]

/-- The leaves of a document before and after a write of a field: in both, the leaves of the entry
written stand among those beside it. -/
theorem exists_documentLeaves (document : Yaml) {name : String} (hname : name ≠ "") :
    ∃ before after, leavesBeside name document = before ++ after ∧
      (∃ old, documentLeaves document = before ++ old ++ after ∧
        ∀ leaf ∈ old, '.' ∉ leaf.1.toList → leaf.1 = name) ∧
      ∀ value, documentLeaves (Path.put document (.field name) value)
        = before ++ leaves name value ++ after := by
  obtain ⟨entries, hentries⟩ :=
    exists_mapping (Node.kind_asMapping document) (Node.untagged_asMapping document)
  obtain ⟨before, key, after, rfl, hbeside, hold, hput⟩ := exists_putEntry name entries
  have hleaves (value : Yaml) : leavesOf "" (before ++ (key, value) :: after)
      = leavesOf "" before ++ leaves key.keyText value ++ leavesOf "" after := by
    rw [leavesOf_append, leavesOf, List.append_assoc]
    rfl
  have hdocument : documentLeaves document = leavesOf "" entries := by
    rw [← documentLeaves_asMapping, hentries]
    rfl
  refine ⟨leavesOf "" before, leavesOf "" after, ?_, ?_, fun value => ?_⟩
  · rw [leavesBeside, hentries, ← leavesOf_append, ← hbeside]
  · rw [hdocument]
    rcases hold with hold | ⟨value, hold⟩
    · exact ⟨[], by rw [hold, leavesOf_append, List.append_nil], by simp⟩
    · refine ⟨_, by rw [hold, hleaves], fun leaf hleaf hdotless => ?_⟩
      rw [(leaves_of_dotless hname hleaf hdotless).1]
  · rw [Path.put, hentries, putField_mapping, ← hleaves, ← hput]
    rfl

/-- Of the keys without a dot, an edit changes the value of the name that its path starts with. -/
theorem find?_set_field {name key : String} (hname : name ≠ "") (hkey : key ≠ name)
    (hdotless : '.' ∉ key.toList) (rest : Path) (document value : Yaml) :
    (ofDocument (Path.set (.field name :: rest) document value)).find? key
      = (ofDocument document).find? key := by
  obtain ⟨before, after, -, ⟨old, hdocument, hold⟩, hput⟩ := exists_documentLeaves document hname
  rw [Path.set_cons, ofDocument, ofDocument, hput, hdocument]
  have hnew : ∀ leaf ∈ leaves name (Path.set rest (Path.child document (.field name)) value),
      leaf.1 ≠ key := by
    rintro leaf hleaf rfl
    exact hkey (congrArg Prod.fst (leaves_of_dotless hname hleaf hdotless).1)
  rw [Dict.find?_ofList_of_ne hnew, Dict.find?_ofList_of_ne]
  rintro leaf hleaf rfl
  exact hkey (hold leaf hleaf hdotless)

end FlatMap

/-! ## What an edit comes to -/

/-- An edit that would leave `text` is refused exactly if a suspect key of the flat map is left, and
then for the least of them in the order of bytes. -/
structure GuardedBy (flat : FlatMap) (text : String) (outcome : Except ConfigError String) :
    Prop where
  refused_iff : (∃ key, outcome = .error (.suspectEntry key)) ↔
    ∃ name value, flat.find? name = some value ∧ Suspect name value
  suspect : ∀ key, outcome = .error (.suspectEntry key) →
    ∃ value, flat.find? key = some value ∧ Suspect key value
  least : ∀ key, outcome = .error (.suspectEntry key) → ∀ name value,
    flat.find? name = some value → Suspect name value → Files.bytesOf key ≤ Files.bytesOf name
  accepted_iff : outcome = .ok text ↔
    ¬∃ name value, flat.find? name = some value ∧ Suspect name value

theorem GuardedBy.cases {flat : FlatMap} {text : String} {outcome : Except ConfigError String}
    (h : GuardedBy flat text outcome) :
    (∃ key, outcome = .error (.suspectEntry key)) ∨ outcome = .ok text := by
  rw [h.refused_iff, h.accepted_iff]
  exact em _

namespace Config

theorem setInDocument_eq_map {content : Option String} {place raw path text : String}
    {document : Yaml} (hpatched : patched content place raw path = .ok document)
    (hwrite : document.write = .ok text) :
    setInDocument content place raw path = (ofText path text).map fun _ => text := by
  rw [setInDocument, hpatched]
  change writeDocument path document = _
  rw [writeDocument, hwrite]

theorem guardedBy_of_ofText (path : String) {text : String} {document : Yaml}
    (hparse : Yaml.parse? text = some document) (hkind : document.kind = .mapping) :
    GuardedBy (FlatMap.ofDocument document) text ((ofText path text).map fun _ => text) := by
  have hrefused : RefusedFor (ofText path text) fun name value =>
      (FlatMap.ofDocument document).find? name = some value :=
    refusedFor_of_find?_iff hparse hkind fun _ _ _ => Iff.rfl
  have herror (key : String) : ((ofText path text).map fun _ => text) = .error (.suspectEntry key)
      ↔ ofText path text = .error (.suspectEntry key) := by
    cases ofText path text <;> simp [Except.map]
  have hok : ((ofText path text).map fun _ => text) = .ok text
      ↔ ¬∃ key, ofText path text = .error (.suspectEntry key) := by
    rw [ofText, hparse]
    dsimp only
    rw [ofDocument, hkind]
    dsimp only
    cases (FlatMap.ofDocument document).suspect? <;> simp [Except.map]
  refine ⟨?_, fun key hkey => ?_, fun key hkey => ?_, hok.trans (not_congr hrefused.refused_iff)⟩
  · simp only [herror, hrefused.refused_iff]
  · exact hrefused.suspect key ((herror key).1 hkey)
  · exact hrefused.least key ((herror key).1 hkey)

theorem not_suspect_rawValue {raw : String} (h : '=' ∉ raw.toList) (name : String) :
    ¬Suspect name (rawValue raw) := by
  rintro ⟨-, text, htext, hequals⟩
  rcases rawValue_cases raw with
    ⟨value, hvalue, -⟩ | ⟨n, hvalue, -⟩ | ⟨x, hvalue, -⟩ | hvalue <;> rw [hvalue] at htext
  · exact nomatch htext
  · exact nomatch htext
  · exact nomatch htext
  · obtain rfl := Yaml.string.inj htext
    exact h hequals

/-- What an edit writes into the entry that it touches is suspect only if it is the raw text. -/
theorem not_suspect_set {rest : Path} {raw : String} (h : rest ≠ [] ∨ '=' ∉ raw.toList)
    (name : String) (child : Yaml) : ¬Suspect name (rest.set child (rawValue raw)) := by
  cases rest with
  | nil => exact not_suspect_rawValue (h.resolve_left (not_not.2 rfl)) name
  | cons accessor rest =>
    rintro ⟨-, text, htext, -⟩
    have hkind : (Path.set (accessor :: rest) child (rawValue raw)).kind = accessor.container := by
      rw [Path.set_cons]
      exact Path.kind_put child accessor _
    rw [← kind_untagged, htext] at hkind
    cases accessor <;> exact nomatch hkind

/-- Where all other entries are free of suspect leaves, an edit leaves none behind. -/
theorem not_suspect_of_beside {name raw : String} (hname : name ≠ "") {base : Yaml} {rest : Path}
    (hbeside : ∀ leaf ∈ leavesBeside name base, ¬Suspect leaf.1 leaf.2)
    (hraw : rest ≠ [] ∨ '=' ∉ raw.toList) {key : String} {value : Yaml}
    (hfind : (FlatMap.ofDocument (Path.set (.field name :: rest) base (rawValue raw))).find? key
      = some value) : ¬Suspect key value := by
  intro hsuspect
  obtain ⟨before, after, hsplit, -, hput⟩ := exists_documentLeaves base hname
  have hleaf := Dict.mem_of_find?_ofList hfind
  rw [Path.set_cons, hput] at hleaf
  rw [hsplit] at hbeside
  rcases List.mem_append.1 hleaf with hleaf | hafter
  · rcases List.mem_append.1 hleaf with hbefore | hentry
    · exact hbeside _ (List.mem_append_left _ hbefore) hsuspect
    · obtain ⟨hpair, -⟩ := leaves_of_dotless hname hentry hsuspect.1
      obtain ⟨rfl, rfl⟩ := Prod.mk.inj hpair
      exact not_suspect_set hraw key _ hsuspect
  · exact hbeside _ (List.mem_append_right _ hafter) hsuspect

/-- An edit whose text would be read back as the document that it makes is refused for making a
sequence exactly if its path starts with a position. Otherwise the flat map of that document
decides. So an edit is refused if the flat map had a suspect key already, unless it is the name that
the path starts with; and it is accepted if only leaves of the entry of that name were suspect, as
long as it does not put a suspect text there. -/
theorem edit_outcome {content : Option String} {place raw path text : String} {steps : Path}
    {base : Yaml} (hsteps : Path.parse place = .ok steps) (hbase : editable path content = .ok base)
    (hwrite : (steps.set base (rawValue raw)).write = .ok text)
    (hparse : Yaml.parse? text = some (steps.set base (rawValue raw))) :
    (setInDocument content place raw path = .error (.notAMapping path .sequence)
      ↔ ∃ position rest, steps = .index position :: rest) ∧
    ∀ name rest, steps = .field name :: rest →
      GuardedBy (FlatMap.ofDocument (steps.set base (rawValue raw))) text
        (setInDocument content place raw path) ∧
      (∀ key value, (FlatMap.ofDocument base).find? key = some value → Suspect key value →
        key ≠ name → ∃ key', setInDocument content place raw path = .error (.suspectEntry key')) ∧
      ((∀ leaf ∈ leavesBeside name base, ¬Suspect leaf.1 leaf.2) →
        rest ≠ [] ∨ '=' ∉ raw.toList → setInDocument content place raw path = .ok text) := by
  have hpatched : patched content place raw path = .ok (steps.set base (rawValue raw)) :=
    patched_eq_ok.2 ⟨steps, base, hsteps, hbase, rfl⟩
  have hspellable := Path.spellable_of_parse hsteps
  rw [setInDocument_eq_map hpatched hwrite]
  cases steps with
  | nil => exact absurd rfl hspellable.nonempty
  | cons accessor rest =>
    have hkind : (Path.set (accessor :: rest) base (rawValue raw)).kind = accessor.container := by
      rw [Path.set_cons]
      exact Path.kind_put base accessor _
    cases accessor with
    | index position =>
      constructor
      · refine iff_of_true ?_ ⟨position, rest, rfl⟩
        rw [ofText, hparse]
        dsimp only
        rw [ofDocument, hkind]
        rfl
      · intro name rest' h
        cases h
    | field name =>
      have hguarded := guardedBy_of_ofText path hparse hkind
      obtain ⟨hname, -, -⟩ := hspellable.steps _ List.mem_cons_self
      constructor
      · refine iff_of_false ?_ ?_
        · intro h
          rcases hguarded.cases with ⟨key, hkey⟩ | hok
          · cases hkey.symm.trans h
          · cases hok.symm.trans h
        · rintro ⟨position, rest', h⟩
          cases h
      · intro name' rest' h
        obtain ⟨rfl, rfl⟩ : name = name' ∧ rest = rest' := by simpa using h
        refine ⟨hguarded, ?_, ?_⟩
        · intro key value hfind hsuspect hkey
          refine hguarded.refused_iff.2 ⟨key, value, ?_, hsuspect⟩
          rw [find?_set_field hname hkey hsuspect.1, hfind]
        · intro hbeside hraw
          refine hguarded.accepted_iff.2 ?_
          rintro ⟨key, value, hfind, hsuspect⟩
          exact not_suspect_of_beside hname hbeside hraw hfind hsuspect

/-- A text that does not load, for the key `port`. -/
def pastedPort : String := "!conf\nport: A=1\n80: [x=y]\n"

def pastedPortDocument : Yaml :=
  .tagged ⟨"conf"⟩ (.mapping [(.string "port", .string "A=1"),
    (.number (.int 80), .sequence [.string "x=y"])])

def pastedPortMended : String := "port:\n  http: 80\n80:\n- x=y\n"

/-- An edit at the suspect key mends the text, and one at another key is refused. -/
theorem edit_outcome_pastedPort :
    editable "app.yaml" (some pastedPort) = .ok pastedPortDocument ∧
    ofText "app.yaml" pastedPort = .error (.suspectEntry "port") ∧
    setInDocument (some pastedPort) "port.http" "80" "app.yaml" = .ok pastedPortMended ∧
    ∃ key, setInDocument (some pastedPort) "debug" "true" "app.yaml"
      = .error (.suspectEntry key) := by
  have hbase : editable "app.yaml" (some pastedPort) = .ok pastedPortDocument := by decide +kernel
  have hhttp : Path.parse "port.http" = .ok [.field "port", .field "http"] := by decide +kernel
  have hdebug : Path.parse "debug" = .ok [.field "debug"] := by decide +kernel
  have hmended : (Path.set [.field "port", .field "http"] pastedPortDocument
      (rawValue "80")).write = .ok pastedPortMended := by decide +kernel
  have hleft : (Path.set [.field "debug"] pastedPortDocument (rawValue "true")).write
      = .ok "port: A=1\n80:\n- x=y\ndebug: true\n" := by decide +kernel
  have hmend := edit_outcome hhttp hbase hmended (by decide +kernel)
  have hleave := edit_outcome hdebug hbase hleft (by decide +kernel)
  refine ⟨hbase, by decide +kernel, ?_, ?_⟩
  · refine (hmend.2 "port" [.field "http"] rfl).2.2 ?_ (.inl (List.cons_ne_nil _ _))
    have hbeside : leavesBeside "port" pastedPortDocument
        = [("80", .sequence [.string "x=y"])] := by decide +kernel
    rw [hbeside, List.forall_mem_singleton]
    rintro ⟨-, text, htext, -⟩
    exact nomatch htext
  · refine (hleave.2 "debug" [] rfl).2.1 "port" (.string "A=1") (by decide +kernel) ?_ (by decide)
    exact ⟨by decide, "A=1", rfl, by decide⟩

end Config

end Dotpath
