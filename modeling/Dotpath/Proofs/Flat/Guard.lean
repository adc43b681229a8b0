import Dotpath.Config
import Dotpath.Proofs.Flat.Listing
import Dotpath.Proofs.Text.Utf8

/-!
# Suspect entries

A configuration does not load if its flat map has a key without a dot that holds a string with an
equals sign. Such a key stands for an entry at the top, or for one below empty keys alone: these
leave no trace in a flat key. So without a mapping under an empty key the entries at the top are all
that matters, and with one a nested entry can be refused.

Results:
1. `suspect?_eq_some`: the suspect key of a flat map is the least.
2. `givenKey_eq_iff`: which leaves are given a key without a dot.
3. `refused_at_top`: what is refused, and under which name.
4. `nested_entry_refused`: a document that is refused for a nested entry.
-/

namespace Dotpath

open Yaml FlatMap

/-- A name without a dot and, below any tags, a string with an equals sign. -/
def Suspect (name : String) (value : Yaml) : Prop :=
  '.' ∉ name.toList ∧ ∃ text, value.untagged = .string text ∧ '=' ∈ text.toList

/-- A load is refused exactly if one of the entries in sight is suspect, and the name that it is
refused for is the least, in the order of bytes, of those that are. -/
structure RefusedFor (outcome : Except ConfigError Config) (inSight : String → Yaml → Prop) :
    Prop where
  refused_iff : (∃ key, outcome = .error (.suspectEntry key)) ↔
    ∃ name value, inSight name value ∧ Suspect name value
  suspect : ∀ key, outcome = .error (.suspectEntry key) → ∃ value, inSight key value ∧
    Suspect key value
  least : ∀ key, outcome = .error (.suspectEntry key) → ∀ name value, inSight name value →
    Suspect name value → Files.bytesOf key ≤ Files.bytesOf name

/-- An entry by its name. -/
def IsEntry (entries : List (Yaml × Yaml)) (name : String) (value : Yaml) : Prop :=
  ∃ entry ∈ entries, entry.1.keyText = name ∧ entry.2 = value

/-- The leaf stands at the top under this name, or below empty keys alone. -/
def Leaf.SurfacesAs (leaf : Leaf) (name : String) : Prop :=
  ∃ count, leaf.names = List.replicate count "" ++ [name]

/-- The last of the leaves that surface under a name. -/
def Yaml.OnSurface (document : Yaml) (name : String) (value : Yaml) : Prop :=
  ∃ leaf : Leaf, leaf.IsLast document.listing (·.SurfacesAs name) ∧ leaf.value = value

/-! ## The suspect key of a flat map -/

namespace FlatMap

theorem isSuspect_iff {name : String} {value : Yaml} :
    isSuspect (name, value) = true ↔ Suspect name value := by
  unfold isSuspect Suspect
  cases value.untagged <;> simp

theorem suspect?_isSome_iff {flat : FlatMap} :
    (∃ key, flat.suspect? = some key) ↔
      ∃ name value, flat.find? name = some value ∧ Suspect name value := by
  rw [← Option.isSome_iff_exists, suspect?, Option.isSome_map, List.find?_isSome]
  constructor
  · rintro ⟨⟨name, value⟩, hentry, hsuspect⟩
    exact ⟨name, value, Dict.find?_eq_some_iff.2 hentry, isSuspect_iff.1 hsuspect⟩
  · rintro ⟨name, value, hfind, hsuspect⟩
    exact ⟨(name, value), Dict.find?_eq_some_iff.1 hfind, isSuspect_iff.2 hsuspect⟩

theorem suspect?_eq_some {flat : FlatMap} {key : String} (h : flat.suspect? = some key) :
    (∃ value, flat.find? key = some value ∧ Suspect key value) ∧
      ∀ name value, flat.find? name = some value → Suspect name value → key ≤ name := by
  obtain ⟨⟨name, value⟩, hfound, rfl⟩ := Option.map_eq_some_iff.1 h
  refine ⟨⟨value, ?_, ?_⟩, fun other value' hother hsuspect => ?_⟩
  · exact Dict.find?_eq_some_iff.2 (List.mem_of_find?_eq_some hfound)
  · exact isSuspect_iff.1 (List.find?_some hfound)
  · exact Dict.le_of_find?_entries hfound (Dict.find?_eq_some_iff.1 hother)
      (isSuspect_iff.2 hsuspect)

/-! ## Keys without a dot -/

theorem foldl_join_replicate (count : Nat) (name : String) :
    (List.replicate count "" ++ [name]).foldl join "" = name := by
  induction count with
  | zero => rfl
  | succ count ih => exact ih

theorem mem_foldl_join {under : String} (h : under ≠ "") {names : List String} (hne : names ≠ []) :
    '.' ∈ (names.foldl join under).toList := by
  obtain ⟨name, rest, rfl⟩ := List.exists_cons_of_ne_nil hne
  rw [foldl_join_of_ne h, String.intercalate_cons_cons]
  simp

theorem exists_replicate_of_dotless {names : List String} (hne : names ≠ [])
    (h : '.' ∉ (names.foldl join "").toList) :
    ∃ count, names = List.replicate count "" ++ [names.foldl join ""] := by
  induction names with
  | nil => exact absurd rfl hne
  | cons name rest ih =>
    cases rest with
    | nil => exact ⟨0, rfl⟩
    | cons next rest =>
      have hname : name = "" := by
        by_contra hname
        exact h (mem_foldl_join hname (List.cons_ne_nil next rest))
      subst hname
      obtain ⟨count, hcount⟩ := ih (List.cons_ne_nil next rest) h
      exact ⟨count + 1, congrArg (List.cons "") hcount⟩

/-- A leaf is given a key without a dot if it surfaces under that key. -/
theorem givenKey_eq_iff {document : Yaml} {leaf : Leaf} (hleaf : document.HasLeaf leaf)
    {name : String} (h : '.' ∉ name.toList) : leaf.givenKey = name ↔ leaf.SurfacesAs name := by
  constructor
  · rintro rfl
    exact exists_replicate_of_dotless hleaf.names_ne_nil h
  · rintro ⟨count, hnames⟩
    rw [Leaf.givenKey, hnames, foldl_join_replicate]

theorem find?_iff_onSurface {document : Yaml} {name : String} (h : '.' ∉ name.toList)
    {value : Yaml} :
    (ofDocument document).find? name = some value ↔ document.OnSurface name value := by
  rw [find?_ofDocument_eq_some_iff]
  refine exists_congr fun leaf => and_congr_left' (Leaf.isLast_congr (fun other hother => ?_) leaf)
  exact givenKey_eq_iff ((mem_listing document other).1 hother) h

end FlatMap

/-! ## Entries at the top -/

namespace Yaml

/-- Where no mapping stands under an empty key, a leaf surfaces only where it is. -/
theorem NamedSections.eq_of_surfacesAs {document : Yaml} (hnamed : document.NamedSections)
    {entries : List (Yaml × Yaml)} (hentries : document.untagged = mapping entries) {leaf : Leaf}
    (hleaf : document.HasLeaf leaf) {name : String} (h : leaf.SurfacesAs name) :
    ∃ position entry, entries[position]? = some entry ∧ entry.1.keyText = name ∧
      leaf = ⟨[position], [entry.1], entry.2⟩ := by
  obtain ⟨count, hnames⟩ := h
  obtain ⟨position, entry, hentry, ⟨-, rfl⟩ | ⟨inner, hinner, rfl⟩⟩ :=
    (hasLeaf_iff hentries).1 hleaf
  · refine ⟨position, entry, hentry, ?_, rfl⟩
    cases count with
    | zero => exact (List.cons.inj hnames).1
    | succ count => exact absurd (List.cons.inj hnames).2 (by simp)
  · -- A leaf further down would have to stand below an empty key.
    cases count with
    | zero => exact absurd (List.cons.inj hnames).2 hinner.names_ne_nil
    | succ count =>
      have hempty : entry.1.keyText = "" := (List.cons.inj hnames).1
      exact absurd hinner.kind (hnamed entries hentries entry (List.mem_of_getElem? hentry) hempty)

theorem NamedSections.onSurface_iff {document : Yaml} (hnamed : document.NamedSections)
    {entries : List (Yaml × Yaml)} (hentries : document.untagged = mapping entries)
    (hdistinct : (entries.map (·.1.keyText)).Nodup) {name : String} {value : Yaml}
    (hvalue : value.kind ≠ .mapping) :
    document.OnSurface name value ↔ IsEntry entries name value := by
  constructor
  · rintro ⟨leaf, hlast, rfl⟩
    obtain ⟨hmem, hsurfaces⟩ := hlast.mem
    obtain ⟨position, entry, hentry, hname, rfl⟩ :=
      hnamed.eq_of_surfacesAs hentries ((mem_listing document leaf).1 hmem) hsurfaces
    exact ⟨entry, List.mem_of_getElem? hentry, hname, rfl⟩
  · rintro ⟨entry, hmem, rfl, rfl⟩
    obtain ⟨position, hentry⟩ := List.getElem?_of_mem hmem
    have hleaf : document.HasLeaf ⟨[position], [entry.1], entry.2⟩ :=
      .entry hentries hentry hvalue
    obtain ⟨before, after, hsplit⟩ := List.append_of_mem ((mem_listing document _).2 hleaf)
    refine ⟨_, ⟨before, after, hsplit, ⟨0, rfl⟩, fun other hother hsurfaces => ?_⟩, rfl⟩
    -- A later leaf that surfaces under the name would be the same entry once more.
    have hnodup := document.nodup_listing
    rw [hsplit, List.nodup_append, List.nodup_cons] at hnodup
    have hother' : document.HasLeaf other :=
      (mem_listing document other).1 (by simp [hsplit, hother])
    obtain ⟨position', entry', hentry', hname, rfl⟩ :=
      hnamed.eq_of_surfacesAs hentries hother' hsurfaces
    obtain rfl := position_inj hdistinct hentry' hentry hname
    obtain rfl := Option.some.inj (hentry.symm.trans hentry')
    exact hnodup.2.1.1 hother

end Yaml

theorem Suspect.kind_ne {name : String} {value : Yaml} (h : Suspect name value) :
    value.kind ≠ .mapping := by
  obtain ⟨-, text, htext, -⟩ := h
  rw [← kind_untagged, htext]
  simp [kind]

namespace Config

theorem ofText_eq_suspectEntry_iff {path text key : String} {document : Yaml}
    (hparse : Yaml.parse? text = some document) (hkind : document.kind = .mapping) :
    ofText path text = .error (.suspectEntry key)
      ↔ (FlatMap.ofDocument document).suspect? = some key := by
  rw [ofText, hparse]
  dsimp only
  rw [ofDocument, hkind]
  dsimp only
  cases (FlatMap.ofDocument document).suspect? with
  | none => simp
  | some found => simp

/-- What counts of the entries in sight is which suspect ones the flat map has. -/
theorem refusedFor_of_find?_iff {path text : String} {document : Yaml}
    (hparse : Yaml.parse? text = some document) (hkind : document.kind = .mapping)
    {inSight : String → Yaml → Prop} (h : ∀ name value, Suspect name value →
      ((FlatMap.ofDocument document).find? name = some value ↔ inSight name value)) :
    RefusedFor (ofText path text) inSight := by
  constructor
  · simp only [ofText_eq_suspectEntry_iff hparse hkind, suspect?_isSome_iff]
    refine exists_congr fun name => exists_congr fun value => ?_
    exact and_congr_left (h name value)
  · intro key hkey
    obtain ⟨⟨value, hfind, hsuspect⟩, -⟩ :=
      suspect?_eq_some ((ofText_eq_suspectEntry_iff hparse hkind).1 hkey)
    exact ⟨value, (h key value hsuspect).1 hfind, hsuspect⟩
  · intro key hkey name value hsight hsuspect
    obtain ⟨-, hleast⟩ := suspect?_eq_some ((ofText_eq_suspectEntry_iff hparse hkind).1 hkey)
    have hfind := (h name value hsuspect).2 hsight
    exact Text.bytesOf_le_bytesOf_iff.2 (hleast name value hfind hsuspect)

end Config

/-- A text whose document is a mapping is refused for the least suspect name of what surfaces in the
document. Where no mapping stands under an empty key at the top, and the entries there have
different names, that is the least suspect name of these entries: nothing nested is refused. -/
theorem refused_at_top {path text : String} {document : Yaml} {entries : List (Yaml × Yaml)}
    (hparse : Yaml.parse? text = some document) (hentries : document.untagged = .mapping entries) :
    RefusedFor (Config.ofText path text) document.OnSurface ∧
    (document.NamedSections → (entries.map (·.1.keyText)).Nodup →
      RefusedFor (Config.ofText path text) (IsEntry entries)) := by
  have hkind : document.kind = .mapping := by
    rw [← kind_untagged, hentries]
    rfl
  refine ⟨?_, fun hnamed hdistinct => ?_⟩
  · refine Config.refusedFor_of_find?_iff hparse hkind fun name value hsuspect => ?_
    exact find?_iff_onSurface hsuspect.1
  · refine Config.refusedFor_of_find?_iff hparse hkind fun name value hsuspect => ?_
    rw [find?_iff_onSurface hsuspect.1]
    exact hnamed.onSurface_iff hentries hdistinct hsuspect.kind_ne

/-- A tagged document with a suspect entry below a tag, and one that comes after it by name. What
else has an equals sign has a dot in its name, is nested, or is no string. -/
def pastedText : String :=
  "!conf\nzeta: z=1\na.b: x=1\nenv:\n  OPTS: a=b\nalpha: !t a=1\n~: [k=v]\n"

def pastedEntries : List (Yaml × Yaml) :=
  [(.string "zeta", .string "z=1"), (.string "a.b", .string "x=1"),
    (.string "env", .mapping [(.string "OPTS", .string "a=b")]),
    (.string "alpha", .tagged ⟨"t"⟩ (.string "a=1")), (.null, .sequence [.string "k=v"])]

def pastedDocument : Yaml :=
  .tagged ⟨"conf"⟩ (.mapping pastedEntries)

theorem refused_at_top_pasted :
    Yaml.parse? pastedText = some pastedDocument ∧
    pastedDocument.untagged = .mapping pastedEntries ∧ pastedDocument.NamedSections ∧
    (pastedEntries.map (·.1.keyText)).Nodup ∧
    Config.ofText "app.yaml" pastedText = .error (.suspectEntry "alpha") ∧
    ∃ key, Config.ofText "app.yaml" pastedText = .error (.suspectEntry key) := by
  have hparse : Yaml.parse? pastedText = some pastedDocument := by decide +kernel
  have hnamed : pastedDocument.NamedSections := by
    intro entries hentries
    obtain rfl := mapping.inj hentries
    decide
  have hdistinct : (pastedEntries.map (·.1.keyText)).Nodup := by decide
  have hrefused : RefusedFor (Config.ofText "app.yaml" pastedText) (IsEntry pastedEntries) :=
    (refused_at_top hparse rfl).2 hnamed hdistinct
  refine ⟨hparse, rfl, hnamed, hdistinct, by decide +kernel, hrefused.refused_iff.2 ?_⟩
  exact ⟨"zeta", .string "z=1", ⟨_, .head _, rfl, rfl⟩, by decide, "z=1", rfl, by decide⟩

/-- An entry below an empty key. -/
def emptySectionText : String :=
  "\"\":\n  x: a=b\n"

def emptySectionEntries : List (Yaml × Yaml) :=
  [(.string "", .mapping [(.string "x", .string "a=b")])]

/-- No entry at the top is suspect, and yet the text is refused, for an entry below an empty key. -/
theorem nested_entry_refused :
    Yaml.parse? emptySectionText = some (.mapping emptySectionEntries) ∧
    (emptySectionEntries.map (·.1.keyText)).Nodup ∧
    Config.ofText "app.yaml" emptySectionText = .error (.suspectEntry "x") ∧
    ¬RefusedFor (Config.ofText "app.yaml" emptySectionText) (IsEntry emptySectionEntries) := by
  have hrefused : Config.ofText "app.yaml" emptySectionText = .error (.suspectEntry "x") := by
    decide +kernel
  refine ⟨by decide +kernel, by decide, hrefused, fun h => ?_⟩
  obtain ⟨value, ⟨entry, hentry, hname, -⟩, -⟩ := h.suspect "x" hrefused
  obtain rfl := List.mem_singleton.1 hentry
  exact nomatch hname

end Dotpath
