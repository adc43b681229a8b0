import Dotpath.Flat
import Dotpath.Proofs.Node.Trees

/-!
# Lookup by the text of a key

The flat map calls an entry by the text that its key is shown as. A name in a path is looked up in
two rounds, first among the keys that are that very string and then among the keys that are no
strings, by their text. The first round does not look through tags and the second does, so a string
below a tag is met in neither.

Results:
1. `addresses_of_isFirstShown`, `found_of_addresses`: where the key is not such a string, the two
   rounds find the entry whose key is the name, or else the first that is shown as the name, and a
   write finds the same.
2. `looksUp_iff`: lookup goes by the text of keys exactly where no such string stands first.
3. `tagged_string_not_looked_up`: an entry of the flat map that no path leads to.
-/

namespace Dotpath

namespace Yaml

/-- A string below a tag. As a key it is shown as the string, but it is not that string. -/
def IsTaggedString (key : Yaml) : Prop :=
  key.isString = true ∧ ∀ text, key ≠ string text

/-- The entry behind `before` is the one to be found under `name`: the first whose key is that very
string, or if there is none the first whose key is shown as the name. -/
def IsFirstShown (name : String) (before : List (Yaml × Yaml)) (entry : Yaml × Yaml)
    (after : List (Yaml × Yaml)) : Prop :=
  (entry.1 = string name ∧ ∀ other ∈ before, other.1 ≠ string name) ∨
  ((∀ other ∈ before ++ entry :: after, other.1 ≠ string name) ∧ entry.1.keyText = name ∧
    ∀ other ∈ before, other.1.keyText ≠ name)

/-- The entry behind `before` is the one that `name` leads to, in a read as in a write. -/
structure Found (node : Yaml) (name : String) (before : List (Yaml × Yaml)) (entry : Yaml × Yaml)
    (after : List (Yaml × Yaml)) : Prop where
  read : node.field? name = some entry.2
  written (value : Yaml) : (node.replaceField? name value).map untagged
    = some (mapping (before ++ (entry.1, value) :: after))

/-- A name is looked up among the entries of `node` by the text of their keys. -/
structure LooksUp (node : Yaml) (entries : List (Yaml × Yaml)) (name : String) : Prop where
  read_iff : (node.field? name).isSome ↔ ∃ entry ∈ entries, entry.1.keyText = name
  written_iff (value : Yaml) :
    (node.replaceField? name value).isSome ↔ ∃ entry ∈ entries, entry.1.keyText = name
  found (before : List (Yaml × Yaml)) (entry : Yaml × Yaml) (after : List (Yaml × Yaml)) :
    entries = before ++ entry :: after → IsFirstShown name before entry after →
      node.Found name before entry after

/-! ## The entry that is found -/

theorem rendersTo_iff {name : String} {entry : Yaml × Yaml} :
    rendersTo name entry = true ↔ entry.1.isString = false ∧ entry.1.keyText = name := by
  simp [rendersTo]

theorem any_isNamed_eq_false {name : String} {entries : List (Yaml × Yaml)}
    (h : ∀ entry ∈ entries, entry.1 ≠ string name) : entries.any (isNamed name) = false :=
  List.any_eq_false.2 fun entry hentry hnamed => h entry hentry (isNamed_iff.1 hnamed)

theorem keyText_of_addresses {entries : List (Yaml × Yaml)} {name : String} {entry : Yaml × Yaml}
    (h : addresses entries name entry = true) : entry.1.keyText = name := by
  unfold addresses at h
  split at h
  · exact keyText_of_isNamed h
  · exact (rendersTo_iff.1 h).2

theorem addresses_of_isFirstShown {name : String} {before after : List (Yaml × Yaml)}
    {entry : Yaml × Yaml} (h : IsFirstShown name before entry after)
    (htagged : ¬entry.1.IsTaggedString) :
    (∀ other ∈ before, addresses (before ++ entry :: after) name other = false) ∧
      addresses (before ++ entry :: after) name entry = true := by
  rcases h with ⟨hkey, hbefore⟩ | ⟨hnone, htext, hbefore⟩
  · have hnamed : isNamed name entry = true := isNamed_iff.2 hkey
    have hany : (before ++ entry :: after).any (isNamed name) = true := by simp [hnamed]
    unfold addresses
    rw [if_pos hany]
    refine ⟨fun other hother => ?_, hnamed⟩
    rw [if_pos hany, ← Bool.not_eq_true]
    exact fun hmatch => hbefore other hother (isNamed_iff.1 hmatch)
  · have hany := any_isNamed_eq_false hnone
    have hkey : entry.1 ≠ string name := hnone entry (by simp)
    have hstring : entry.1.isString = false := by
      rw [← Bool.not_eq_true]
      intro hstring
      refine htagged ⟨hstring, fun text heq => hkey ?_⟩
      rw [heq] at htext ⊢
      exact congrArg string htext
    unfold addresses
    rw [hany]
    refine ⟨fun other hother => ?_, rendersTo_iff.2 ⟨hstring, htext⟩⟩
    simp [rendersTo, hbefore other hother]

theorem exists_isFirstShown {name : String} {entries : List (Yaml × Yaml)}
    (h : ∃ entry ∈ entries, entry.1.keyText = name) :
    ∃ before entry after, entries = before ++ entry :: after ∧
      IsFirstShown name before entry after := by
  cases hnamed : entries.find? (isNamed name) with
  | some entry =>
    obtain ⟨hkey, before, after, hsplit, hskip⟩ := List.find?_eq_some_iff_append.1 hnamed
    refine ⟨before, entry, after, hsplit, .inl ⟨isNamed_iff.1 hkey, fun other hother heq => ?_⟩⟩
    simpa [isNamed_iff.2 heq] using hskip other hother
  | none =>
    have hnone : ∀ other ∈ entries, other.1 ≠ string name := fun other hother heq =>
      List.find?_eq_none.1 hnamed other hother (isNamed_iff.2 heq)
    cases hshown : entries.find? (·.1.keyText == name) with
    | some entry =>
      obtain ⟨htext, before, after, rfl, hskip⟩ := List.find?_eq_some_iff_append.1 hshown
      exact ⟨before, entry, after, rfl, .inr ⟨hnone, by simpa using htext, by simpa using hskip⟩⟩
    | none =>
      obtain ⟨entry, hentry, htext⟩ := h
      exact absurd (beq_iff_eq.2 htext) (List.find?_eq_none.1 hshown entry hentry)

/-! ## Reads and writes -/

/-- A write of a field looks through tags and leaves them where they are. -/
theorem map_untagged_replaceField? (node : Yaml) (name : String) (value : Yaml) :
    (node.replaceField? name value).map untagged = node.untagged.replaceField? name value := by
  fun_induction untagged node with
  | case1 tag inner ih =>
    rw [replaceField?, Option.map_map]
    exact ih
  | case2 node =>
    cases node with
    | mapping entries =>
      rw [replaceField?, Option.map_map]
      rfl
    | tagged tag inner => simp_all
    | _ => rfl

theorem found_of_addresses {node : Yaml} {name : String} {before after : List (Yaml × Yaml)}
    {entry : Yaml × Yaml} (h : node.untagged = mapping (before ++ entry :: after))
    (hbefore : ∀ other ∈ before, addresses (before ++ entry :: after) name other = false)
    (hentry : addresses (before ++ entry :: after) name entry = true) :
    node.Found name before entry after := by
  constructor
  · have hpast : before.find? (addresses (before ++ entry :: after) name) = none :=
      List.find?_eq_none.2 fun other hother => by simp [hbefore other hother]
    rw [← field?_untagged, h, field?, List.find?_append, hpast, List.find?_cons_of_pos hentry]
    rfl
  · intro value
    rw [map_untagged_replaceField?, h, replaceField?, replaceFirst_of_split hbefore hentry]
    rfl

/-- What a write changes is the entry that the name addresses. -/
theorem addresses_of_found {node : Yaml} {name : String} {before after : List (Yaml × Yaml)}
    {entry : Yaml × Yaml} (h : node.untagged = mapping (before ++ entry :: after))
    (hfound : node.Found name before entry after) :
    addresses (before ++ entry :: after) name entry = true := by
  have hwritten (value : Yaml) := hfound.written value
  simp only [map_untagged_replaceField?, h, replaceField?] at hwritten
  rcases replaceFirst_cases (addresses (before ++ entry :: after) name)
    (before ++ entry :: after) with
    ⟨front, first, back, hsplit, -, hfirst, hreplace⟩ | ⟨-, hreplace⟩
  · simp only [hreplace, Option.map_some, Option.some.injEq, mapping.injEq] at hwritten
    by_cases hlength : before.length = front.length
    · obtain ⟨-, hrest⟩ := List.append_inj hsplit hlength
      obtain ⟨rfl, -⟩ := List.cons.inj hrest
      exact hfirst
    · -- Elsewhere the entry would keep its value whatever is written.
      have hkept (value : Yaml) : entry = (entry.1, value) := by
        have hset : front ++ (first.1, value) :: back
            = (before ++ entry :: after).set front.length (first.1, value) := by simp [hsplit]
        have hread := congrArg (·[before.length]?) (hwritten value)
        simp only [hset, List.getElem?_set_ne (Ne.symm hlength)] at hread
        simpa using hread
      have hnull := congrArg Prod.snd (hkept null)
      have htrue := congrArg Prod.snd (hkept (bool true))
      exact nomatch hnull.symm.trans htrue
  · simp [hreplace] at hwritten

theorem not_addresses_of_isTaggedString {key : Yaml} (h : key.IsTaggedString)
    (entries : List (Yaml × Yaml)) (name : String) (value : Yaml) :
    addresses entries name (key, value) = false := by
  obtain ⟨hstring, htext⟩ := h
  unfold addresses
  split
  · rw [← Bool.not_eq_true]
    exact fun hnamed => htext name (isNamed_iff.1 hnamed)
  · simp [rendersTo, hstring]

theorem isSome_field?_iff {node : Yaml} {entries : List (Yaml × Yaml)}
    (h : node.untagged = mapping entries) (name : String) :
    (node.field? name).isSome ↔ ∃ entry ∈ entries, addresses entries name entry = true := by
  rw [← field?_untagged, h, field?, Option.isSome_map, List.find?_isSome]

theorem isSome_replaceField?_iff {node : Yaml} {entries : List (Yaml × Yaml)}
    (h : node.untagged = mapping entries) (name : String) (value : Yaml) :
    (node.replaceField? name value).isSome
      ↔ ∃ entry ∈ entries, addresses entries name entry = true := by
  rw [← Option.isSome_map, map_untagged_replaceField?, h, replaceField?, Option.isSome_map]
  rcases replaceFirst_cases (addresses entries name) entries with
    ⟨before, entry, after, hsplit, -, hentry, hreplace⟩ | ⟨hnone, hreplace⟩
  · rw [hreplace]
    exact ⟨fun _ => ⟨entry, by simp [hsplit], hentry⟩, fun _ => rfl⟩
  · rw [hreplace]
    refine ⟨nofun, ?_⟩
    rintro ⟨entry, hentry, hmatch⟩
    exact absurd hmatch (by simp [hnone entry hentry])

end Yaml

open Yaml

/-- Lookup goes by the text of keys exactly where the entry to be found does not stand under a
tagged string. Any other key is found by its text, tagged ones included: first the string itself,
then whatever comes first in the document, and a write finds what a read finds. -/
theorem looksUp_iff {node : Yaml} {entries : List (Yaml × Yaml)}
    (h : node.untagged = mapping entries) (name : String) :
    node.LooksUp entries name ↔ ∀ before entry after, entries = before ++ entry :: after →
      IsFirstShown name before entry after → ¬entry.1.IsTaggedString := by
  constructor
  · rintro hlooks before entry after rfl hfirst htagged
    have hmatch := addresses_of_found h (hlooks.found before entry after rfl hfirst)
    rw [not_addresses_of_isTaggedString htagged] at hmatch
    exact nomatch hmatch
  · intro hplain
    have haddressed : (∃ entry ∈ entries, addresses entries name entry = true)
        ↔ ∃ entry ∈ entries, entry.1.keyText = name := by
      constructor
      · rintro ⟨entry, hentry, hmatch⟩
        exact ⟨entry, hentry, keyText_of_addresses hmatch⟩
      · intro hshown
        obtain ⟨before, entry, after, rfl, hfirst⟩ := exists_isFirstShown hshown
        have htagged := hplain before entry after rfl hfirst
        exact ⟨entry, by simp, (addresses_of_isFirstShown hfirst htagged).2⟩
    refine ⟨?_, fun value => ?_, ?_⟩
    · rw [isSome_field?_iff h, haddressed]
    · rw [isSome_replaceField?_iff h, haddressed]
    · rintro before entry after rfl hfirst
      have htagged := hplain before entry after rfl hfirst
      obtain ⟨hbefore, hentry⟩ := addresses_of_isFirstShown hfirst htagged
      exact found_of_addresses h hbefore hentry

/-- Entries under a number, a tagged number and the string that the first is shown as. -/
def numberedEntries : List (Yaml × Yaml) :=
  [(.number (.int 1), .string "number"), (.tagged ⟨"n"⟩ (.number (.int 2)), .string "tagged"),
    (.string "1", .string "string")]

theorem looksUp_iff_numbered :
    (Yaml.tagged ⟨"keys"⟩ (.mapping numberedEntries)).untagged = .mapping numberedEntries ∧
    (∀ name before entry after, numberedEntries = before ++ entry :: after →
      IsFirstShown name before entry after → ¬entry.1.IsTaggedString) ∧
    (Yaml.tagged ⟨"keys"⟩ (.mapping numberedEntries)).LooksUp numberedEntries "1" ∧
    (Yaml.tagged ⟨"keys"⟩ (.mapping numberedEntries)).LooksUp numberedEntries "2" := by
  have hplain : ∀ entry ∈ numberedEntries, ¬entry.1.IsTaggedString := by
    rintro entry hentry ⟨hstring, htext⟩
    rcases hentry with _ | ⟨_, _ | ⟨_, _ | ⟨_, ⟨⟩⟩⟩⟩
    · exact nomatch hstring
    · exact nomatch hstring
    · exact htext "1" rfl
  have hfirst : ∀ name before entry after, numberedEntries = before ++ entry :: after →
      IsFirstShown name before entry after → ¬entry.1.IsTaggedString := by
    intro name before entry after hsplit _
    exact hplain entry (by simp [hsplit])
  exact ⟨rfl, hfirst, (looksUp_iff rfl "1").2 (hfirst "1"), (looksUp_iff rfl "2").2 (hfirst "2")⟩

/-- A string below a tag has its place in the flat map, but no path leads to it. -/
theorem tagged_string_not_looked_up :
    (FlatMap.ofDocument (.mapping [(.tagged ⟨"t"⟩ (.string "foo"), .number (.int 1))])).find? "foo"
      = some (.number (.int 1)) ∧
    (Yaml.mapping [(.tagged ⟨"t"⟩ (.string "foo"), .number (.int 1))]).field? "foo" = none ∧
    ¬(Yaml.mapping [(.tagged ⟨"t"⟩ (.string "foo"), .number (.int 1))]).LooksUp
        [(.tagged ⟨"t"⟩ (.string "foo"), .number (.int 1))] "foo" := by
  refine ⟨rfl, rfl, fun hlooks => ?_⟩
  have hshown := hlooks.read_iff.2 ⟨_, List.mem_singleton_self _, rfl⟩
  exact nomatch hshown

end Dotpath
