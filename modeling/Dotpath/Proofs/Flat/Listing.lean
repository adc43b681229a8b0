import Dotpath.Proofs.Dict
import Dotpath.Proofs.Flat.Leaves

/-!
# Leaves in document order

A leaf of a document is a value that is reached through mappings only, tags looked through, and is
no mapping itself. It is told by its place, the positions of the entries on the way to it, and these
places in lexicographic order are the order of the document.

The flat key of a leaf is made of the names on the way, joined by dots. Flattening passes the key
that it has so far down to the next mapping, where the empty text counts as no key at all. So a
mapping under an empty key at the top gives its entries the keys that they would have at the top,
and only without such a mapping are flat keys what they are meant to be.

Results:
1. `mem_listing`, `pairwise_listing`: the listing of a document holds its leaves in document order.
2. `find?_ofDocument_eq_some_iff`: a flat map holds the last leaf that comes to a key.
3. `eq_of_names_prefix`: where siblings have different names, the way to a leaf ends at no other.
4. `flat_map_exact`: what a flat map holds at each key, and when it loses no leaf.
-/

namespace Dotpath

open Yaml

/-- A value with the way to it. -/
structure Leaf where
  /-- The position of each entry on the way among its siblings. -/
  place : List Nat
  /-- The key of each entry on the way. -/
  keys : List Yaml
  value : Yaml
deriving DecidableEq

namespace Leaf

def names (leaf : Leaf) : List String :=
  leaf.keys.map keyText

/-- The names on the way, joined by dots. -/
def flatKey (leaf : Leaf) : String :=
  String.intercalate "." leaf.names

/-- The key that flattening gives the leaf. -/
def givenKey (leaf : Leaf) : String :=
  leaf.names.foldl FlatMap.join ""

/-- The leaf with one more entry at the start of the way. -/
def below (position : Nat) (key : Yaml) (leaf : Leaf) : Leaf :=
  ⟨position :: leaf.place, key :: leaf.keys, leaf.value⟩

/-- The last of the leaves that pass a test. -/
def IsLast (leaves : List Leaf) (test : Leaf → Prop) (leaf : Leaf) : Prop :=
  ∃ before after, leaves = before ++ leaf :: after ∧ test leaf ∧ ∀ other ∈ after, ¬test other

theorem IsLast.mem {leaves : List Leaf} {test : Leaf → Prop} {leaf : Leaf}
    (h : IsLast leaves test leaf) : leaf ∈ leaves ∧ test leaf := by
  obtain ⟨before, after, rfl, htest, -⟩ := h
  exact ⟨by simp, htest⟩

theorem isLast_congr {leaves : List Leaf} {test test' : Leaf → Prop}
    (h : ∀ leaf ∈ leaves, (test leaf ↔ test' leaf)) (leaf : Leaf) :
    IsLast leaves test leaf ↔ IsLast leaves test' leaf := by
  unfold IsLast
  refine exists_congr fun before => exists_congr fun after => and_congr_right fun hsplit => ?_
  rw [hsplit, List.forall_mem_append, List.forall_mem_cons] at h
  refine and_congr h.2.1 (forall₂_congr fun other hother => not_congr ?_)
  exact h.2.2 other hother

end Leaf

namespace Yaml

/-- A value that is reached through mappings only, and is no mapping itself. -/
inductive HasLeaf : Yaml → Leaf → Prop
  | entry {tree : Yaml} {entries : List (Yaml × Yaml)} {position : Nat} {key value : Yaml} :
      tree.untagged = mapping entries → entries[position]? = some (key, value) →
      value.kind ≠ .mapping → HasLeaf tree ⟨[position], [key], value⟩
  | within {tree : Yaml} {entries : List (Yaml × Yaml)} {position : Nat} {key child : Yaml}
      {leaf : Leaf} : tree.untagged = mapping entries → entries[position]? = some (key, child) →
      HasLeaf child leaf → HasLeaf tree (leaf.below position key)

/-- `holds` goes for the entries of every mapping that is reached through mappings. -/
inductive EachMapping (holds : List (Yaml × Yaml) → Prop) : Yaml → Prop
  | leaf {tree : Yaml} : tree.kind ≠ .mapping → EachMapping holds tree
  | mapping {tree : Yaml} {entries : List (Yaml × Yaml)} : tree.untagged = mapping entries →
      holds entries → (∀ entry ∈ entries, EachMapping holds entry.2) → EachMapping holds tree

/-- Siblings have different names, and none has a dot. -/
structure PlainNames (entries : List (Yaml × Yaml)) : Prop where
  distinct : (entries.map (·.1.keyText)).Nodup
  dotless : ∀ entry ∈ entries, '.' ∉ entry.1.keyText.toList

/-- No mapping stands under an empty key at the top. -/
def NamedSections (document : Yaml) : Prop :=
  ∀ entries, document.untagged = mapping entries →
    ∀ entry ∈ entries, entry.1.keyText = "" → entry.2.kind ≠ .mapping

mutual

/-- The leaves of a tree, depth first. -/
def listing : Yaml → List Leaf
  | mapping entries => listingFrom 0 entries
  | tagged _ value => value.listing
  | _ => []

/-- The leaves below entries, of which the first has this position. -/
def listingFrom (position : Nat) : List (Yaml × Yaml) → List Leaf
  | [] => []
  | (key, value) :: rest =>
    (if value.kind = .mapping then value.listing.map (Leaf.below position key)
      else [⟨[position], [key], value⟩]) ++ listingFrom (position + 1) rest

end

/-! ## The listing -/

theorem HasLeaf.kind {tree : Yaml} {leaf : Leaf} (h : tree.HasLeaf leaf) :
    tree.kind = .mapping := by
  rw [← kind_untagged]
  cases h with
  | entry htree _ _ => rw [htree]; rfl
  | within htree _ _ => rw [htree]; rfl

theorem HasLeaf.names_ne_nil {tree : Yaml} {leaf : Leaf} (h : tree.HasLeaf leaf) :
    leaf.names ≠ [] := by
  cases h with
  | entry => exact List.cons_ne_nil _ _
  | within => exact List.cons_ne_nil _ _

theorem hasLeaf_tagged_iff {tag : Tag} {value : Yaml} {leaf : Leaf} :
    (tagged tag value).HasLeaf leaf ↔ value.HasLeaf leaf := by
  constructor
  · intro h
    cases h with
    | entry htree hentry hvalue => exact .entry htree hentry hvalue
    | within htree hentry hchild => exact .within htree hentry hchild
  · intro h
    cases h with
    | entry htree hentry hvalue => exact .entry htree hentry hvalue
    | within htree hentry hchild => exact .within htree hentry hchild

/-- A leaf that the entry at a position gives a mapping. -/
def EntryLeaf (position : Nat) (entry : Yaml × Yaml) (leaf : Leaf) : Prop :=
  entry.2.kind ≠ .mapping ∧ leaf = ⟨[position], [entry.1], entry.2⟩ ∨
    ∃ inner, entry.2.HasLeaf inner ∧ leaf = inner.below position entry.1

theorem hasLeaf_iff {tree : Yaml} {entries : List (Yaml × Yaml)}
    (htree : tree.untagged = mapping entries) {leaf : Leaf} :
    tree.HasLeaf leaf ↔
      ∃ position entry, entries[position]? = some entry ∧ EntryLeaf position entry leaf := by
  constructor
  · intro h
    cases h with
    | entry htree' hentry hvalue =>
      obtain rfl := mapping.inj (htree.symm.trans htree')
      exact ⟨_, _, hentry, .inl ⟨hvalue, rfl⟩⟩
    | within htree' hentry hchild =>
      obtain rfl := mapping.inj (htree.symm.trans htree')
      exact ⟨_, _, hentry, .inr ⟨_, hchild, rfl⟩⟩
  · rintro ⟨position, ⟨key, value⟩, hentry, ⟨hvalue, rfl⟩ | ⟨inner, hinner, rfl⟩⟩
    · exact .entry htree hentry hvalue
    · exact .within htree hentry hinner

mutual

/-- The listing holds the leaves and nothing else. -/
theorem mem_listing : (tree : Yaml) → (leaf : Leaf) → (leaf ∈ tree.listing ↔ tree.HasLeaf leaf)
  | mapping entries, leaf => by
    rw [listing, mem_listingFrom 0 entries leaf, hasLeaf_iff rfl]
    simp only [Nat.zero_add]
  | tagged tag value, leaf => by
    rw [listing, mem_listing value leaf, hasLeaf_tagged_iff]
  | null, leaf => ⟨nofun, fun h => nomatch h.kind⟩
  | bool _, leaf => ⟨nofun, fun h => nomatch h.kind⟩
  | number _, leaf => ⟨nofun, fun h => nomatch h.kind⟩
  | string _, leaf => ⟨nofun, fun h => nomatch h.kind⟩
  | sequence _, leaf => ⟨nofun, fun h => nomatch h.kind⟩

theorem mem_listingFrom (start : Nat) : (entries : List (Yaml × Yaml)) → (leaf : Leaf) →
    (leaf ∈ listingFrom start entries ↔
      ∃ position entry, entries[position]? = some entry ∧ EntryLeaf (start + position) entry leaf)
  | [], leaf => by simp [listingFrom]
  | (key, value) :: rest, leaf => by
    have hhead : (leaf ∈ if value.kind = .mapping then value.listing.map (Leaf.below start key)
        else [⟨[start], [key], value⟩]) ↔ EntryLeaf start (key, value) leaf := by
      unfold EntryLeaf
      split
      · next hkind => simp [hkind, mem_listing value, eq_comm]
      · next hkind =>
        have hnone : ∀ inner, ¬value.HasLeaf inner := fun inner hinner => hkind hinner.kind
        simp [hkind, hnone]
    rw [listingFrom, List.mem_append, hhead, mem_listingFrom (start + 1) rest]
    constructor
    · rintro (h | ⟨position, entry, hentry, h⟩)
      · exact ⟨0, (key, value), rfl, h⟩
      · exact ⟨position + 1, entry, hentry, by rwa [← Nat.add_assoc, Nat.add_right_comm]⟩
    · rintro ⟨position, entry, hentry, h⟩
      cases position with
      | zero =>
        obtain rfl := Option.some.inj hentry
        exact .inl h
      | succ position =>
        refine .inr ⟨position, entry, hentry, ?_⟩
        rwa [Nat.add_assoc, Nat.add_comm 1 position]

end

theorem le_place_of_mem_listingFrom {start : Nat} {entries : List (Yaml × Yaml)} {leaf : Leaf}
    (h : leaf ∈ listingFrom start entries) :
    ∃ position rest, leaf.place = position :: rest ∧ start ≤ position := by
  obtain ⟨position, entry, -, ⟨-, rfl⟩ | ⟨inner, -, rfl⟩⟩ :=
    (mem_listingFrom start entries leaf).1 h
  · exact ⟨start + position, [], rfl, Nat.le_add_right start position⟩
  · exact ⟨start + position, inner.place, rfl, Nat.le_add_right start position⟩

mutual

/-- The listing is in document order. -/
theorem pairwise_listing : (tree : Yaml) → tree.listing.Pairwise (·.place < ·.place)
  | mapping entries => pairwise_listingFrom 0 entries
  | tagged _ value => pairwise_listing value
  | null => .nil
  | bool _ => .nil
  | number _ => .nil
  | string _ => .nil
  | sequence _ => .nil

theorem pairwise_listingFrom (start : Nat) : (entries : List (Yaml × Yaml)) →
    (listingFrom start entries).Pairwise (·.place < ·.place)
  | [] => .nil
  | (key, value) :: rest => by
    rw [listingFrom, List.pairwise_append]
    refine ⟨?_, pairwise_listingFrom (start + 1) rest, ?_⟩
    · split
      · refine List.pairwise_map.2 ((pairwise_listing value).imp fun hlt => ?_)
        exact List.cons_lt_cons_iff.2 (.inr ⟨rfl, hlt⟩)
      · exact List.pairwise_singleton _ _
    · -- Leaves of the first entry have its position in front, all others a greater one.
      intro leaf hleaf other hother
      obtain ⟨position, below, hplace, hle⟩ := le_place_of_mem_listingFrom hother
      rw [hplace]
      split at hleaf
      · obtain ⟨inner, -, rfl⟩ := List.mem_map.1 hleaf
        exact List.cons_lt_cons_iff.2 (.inl hle)
      · obtain rfl := List.mem_singleton.1 hleaf
        exact List.cons_lt_cons_iff.2 (.inl hle)

end

end Yaml

/-! ## Flat maps -/

namespace FlatMap

mutual

theorem leaves_eq_map_listing (key : String) : (tree : Yaml) → tree.kind = .mapping →
    leaves key tree = tree.listing.map fun leaf => (leaf.names.foldl join key, leaf.value)
  | .mapping entries, _ => by
    rw [leaves, listing, leavesOf_eq_map_listingFrom key 0 entries]
  | .tagged tag value, h => by
    have hvalue : value.kind = .mapping := h
    rw [leaves_tagged hvalue, listing, leaves_eq_map_listing key value hvalue]
  | .null, h => nomatch h
  | .bool _, h => nomatch h
  | .number _, h => nomatch h
  | .string _, h => nomatch h
  | .sequence _, h => nomatch h

theorem leavesOf_eq_map_listingFrom (under : String) (start : Nat) :
    (entries : List (Yaml × Yaml)) → leavesOf under entries
      = (listingFrom start entries).map fun leaf => (leaf.names.foldl join under, leaf.value)
  | [] => rfl
  | (key, value) :: rest => by
    rw [leavesOf, listingFrom, List.map_append, leavesOf_eq_map_listingFrom under (start + 1) rest]
    congr 1
    split
    · next hkind =>
      rw [leaves_eq_map_listing _ value hkind, List.map_map]
      rfl
    · next hkind =>
      rw [leaves_of_kind_ne hkind]
      rfl

end

theorem documentLeaves_eq_map_listing (document : Yaml) :
    documentLeaves document = document.listing.map fun leaf => (leaf.givenKey, leaf.value) := by
  rw [documentLeaves_eq]
  split
  · next hkind => exact leaves_eq_map_listing "" document hkind
  · next hkind =>
    have hnil : document.listing = [] := by
      refine List.eq_nil_iff_forall_not_mem.2 fun leaf hleaf => hkind ?_
      exact ((mem_listing document leaf).1 hleaf).kind
    rw [hnil]
    rfl

/-- A flat map holds the last of the leaves that are given one key. -/
theorem find?_ofDocument_eq_some_iff {document : Yaml} {key : String} {value : Yaml} :
    (ofDocument document).find? key = some value ↔
      ∃ leaf : Leaf, leaf.IsLast document.listing (·.givenKey = key) ∧ leaf.value = value := by
  rw [ofDocument, Dict.find?_ofList_eq_some_iff, documentLeaves_eq_map_listing]
  constructor
  · rintro ⟨front, back, hsplit, hback⟩
    obtain ⟨before, behind, hlisting, rfl, hbehind⟩ := List.map_eq_append_iff.1 hsplit
    obtain ⟨leaf, after, rfl, hleaf, rfl⟩ := List.map_eq_cons_iff.1 hbehind
    obtain ⟨rfl, rfl⟩ := Prod.mk.inj hleaf
    refine ⟨leaf, ⟨before, after, hlisting, rfl, fun other hother => ?_⟩, rfl⟩
    exact hback _ (List.mem_map_of_mem hother)
  · rintro ⟨leaf, ⟨before, after, hlisting, rfl, hafter⟩, rfl⟩
    refine ⟨_, _, by rw [hlisting, List.map_append, List.map_cons], fun entry hentry => ?_⟩
    obtain ⟨other, hother, rfl⟩ := List.mem_map.1 hentry
    exact hafter other hother

theorem contains_ofDocument_iff {document : Yaml} {key : String} :
    (ofDocument document).contains key ↔ ∃ leaf ∈ document.listing, leaf.givenKey = key := by
  rw [ofDocument, Dict.contains_ofList, documentLeaves_eq_map_listing]
  simp

/-! ### Keys -/

theorem join_of_ne {under : String} (h : under ≠ "") (key : String) :
    join under key = under ++ "." ++ key := by
  rw [join, if_neg (by simpa using h)]

theorem foldl_join_of_ne {under : String} (h : under ≠ "") (names : List String) :
    names.foldl join under = String.intercalate "." (under :: names) := by
  induction names generalizing under with
  | nil => rfl
  | cons name names ih =>
    have hne : under ++ "." ++ name ≠ "" := by simp [String.append_eq_empty_iff]
    rw [List.foldl_cons, join_of_ne h, ih hne, String.intercalate_cons_cons]
    exact String.intercalate_cons_append

end FlatMap

namespace Yaml

open FlatMap

theorem EntryLeaf.exists_names {position : Nat} {entry : Yaml × Yaml} {leaf : Leaf}
    (h : EntryLeaf position entry leaf) : ∃ rest, leaf.names = entry.1.keyText :: rest := by
  rcases h with ⟨-, rfl⟩ | ⟨inner, -, rfl⟩
  · exact ⟨[], rfl⟩
  · exact ⟨inner.names, rfl⟩

/-- Where every mapping at the top has a name, the key of a leaf is made of all names on the way. -/
theorem NamedSections.givenKey_eq {document : Yaml} (hnamed : document.NamedSections) {leaf : Leaf}
    (h : document.HasLeaf leaf) : leaf.givenKey = leaf.flatKey := by
  obtain ⟨entries, hentries⟩ := exists_untagged h.kind
  obtain ⟨position, entry, hentry, ⟨-, rfl⟩ | ⟨inner, hinner, rfl⟩⟩ := (hasLeaf_iff hentries).1 h
  · exact String.intercalate_singleton.symm
  · have hname : entry.1.keyText ≠ "" := fun hempty =>
      hnamed entries hentries entry (List.mem_of_getElem? hentry) hempty hinner.kind
    exact foldl_join_of_ne hname inner.names

/-! ### Plain names -/

theorem position_inj {entries : List (Yaml × Yaml)}
    (hdistinct : (entries.map (·.1.keyText)).Nodup) {position position' : Nat}
    {entry entry' : Yaml × Yaml} (hentry : entries[position]? = some entry)
    (hentry' : entries[position']? = some entry') (hname : entry.1.keyText = entry'.1.keyText) :
    position = position' := by
  have hlt : position < (entries.map (·.1.keyText)).length := by
    rw [List.length_map]
    exact (List.getElem?_eq_some_iff.1 hentry).1
  refine (List.getElem?_inj hlt hdistinct).1 ?_
  rw [List.getElem?_map, List.getElem?_map, hentry, hentry', Option.map_some, Option.map_some,
    hname]

/-- The names on the way to a leaf lead no further, and to no other leaf. -/
theorem eq_of_names_prefix {tree : Yaml} (hplain : tree.EachMapping PlainNames) {leaf other : Leaf}
    (hleaf : tree.HasLeaf leaf) (hother : tree.HasLeaf other)
    (hnames : leaf.names <+: other.names) : leaf = other := by
  induction hplain generalizing leaf other with
  | leaf hkind => exact absurd hleaf.kind hkind
  | mapping htree hholds _ ih =>
    obtain ⟨position, entry, hentry, hform⟩ := (hasLeaf_iff htree).1 hleaf
    obtain ⟨position', entry', hentry', hform'⟩ := (hasLeaf_iff htree).1 hother
    -- The first name decides on the entry, and so on the position.
    obtain ⟨rest, hrest⟩ := hform.exists_names
    obtain ⟨rest', hrest'⟩ := hform'.exists_names
    rw [hrest, hrest', List.cons_prefix_cons] at hnames
    obtain rfl := position_inj hholds.distinct hentry hentry' hnames.1
    obtain rfl := Option.some.inj (hentry.symm.trans hentry')
    rcases hform with ⟨hvalue, rfl⟩ | ⟨inner, hinner, rfl⟩ <;>
      rcases hform' with ⟨hvalue', rfl⟩ | ⟨inner', hinner', rfl⟩
    · rfl
    · exact absurd hinner'.kind hvalue
    · exact absurd hinner.kind hvalue'
    · have htail : inner.names <+: inner'.names := by
        rw [← (List.cons.inj hrest).2, ← (List.cons.inj hrest').2] at hnames
        exact hnames.2
      rw [ih entry (List.mem_of_getElem? hentry) hinner hinner' htail]

theorem dotless_of_hasLeaf {tree : Yaml} (hplain : tree.EachMapping PlainNames) {leaf : Leaf}
    (hleaf : tree.HasLeaf leaf) : ∀ name ∈ leaf.names, '.' ∉ name.toList := by
  induction hplain generalizing leaf with
  | leaf hkind => exact absurd hleaf.kind hkind
  | mapping htree hholds _ ih =>
    obtain ⟨position, entry, hentry, hform⟩ := (hasLeaf_iff htree).1 hleaf
    have hmem := List.mem_of_getElem? hentry
    have hname := hholds.dotless entry hmem
    rcases hform with ⟨-, rfl⟩ | ⟨inner, hinner, rfl⟩
    · exact List.forall_mem_singleton.2 hname
    · exact List.forall_mem_cons.2 ⟨hname, ih entry hmem hinner⟩

end Yaml

/-- Texts without a dot can be read off their join. -/
theorem intercalate_dot_inj {names names' : List String} (hne : names ≠ []) (hne' : names' ≠ [])
    (hdotless : ∀ name ∈ names, '.' ∉ name.toList) (hdotless' : ∀ name ∈ names', '.' ∉ name.toList)
    (h : String.intercalate "." names = String.intercalate "." names') : names = names' := by
  have hsplit {words : List String} (hne : words ≠ [])
      (hdotless : ∀ word ∈ words, '.' ∉ word.toList) :
      (String.intercalate "." words).toList.splitOn '.' = words.map String.toList := by
    rw [String.toList_intercalate]
    exact List.splitOn_intercalate '.' (by simpa using hdotless) (by simpa using hne)
  have hmap : names.map String.toList = names'.map String.toList := by
    rw [← hsplit hne hdotless, h, hsplit hne' hdotless']
  exact List.map_injective_iff.2 (fun _ _ => String.toList_inj.1) hmap

theorem Yaml.nodup_listing (document : Yaml) : document.listing.Nodup := by
  refine (pairwise_listing document).imp fun hlt heq => ?_
  rw [heq] at hlt
  exact List.lt_irrefl _ hlt

/-- Where siblings have different names without dots, leaves have different flat keys. -/
theorem Yaml.nodup_flatKeys {document : Yaml} (hplain : document.EachMapping PlainNames) :
    (document.listing.map Leaf.flatKey).Nodup := by
  refine (List.nodup_map_iff_inj_on document.nodup_listing).2 fun leaf hleaf other hother heq => ?_
  rw [mem_listing] at hleaf hother
  have hnames : leaf.names = other.names :=
    intercalate_dot_inj hleaf.names_ne_nil hother.names_ne_nil (dotless_of_hasLeaf hplain hleaf)
      (dotless_of_hasLeaf hplain hother) heq
  exact eq_of_names_prefix hplain hleaf hother (hnames ▸ List.prefix_rfl)

/-! ## What a flat map holds -/

open FlatMap

/-- Where every mapping at the top has a name, a document has a flat entry for a key if and only if
a leaf has this flat key, and its value, with its tags, is the last such leaf of the document. If no
name has a dot and siblings have different names, no leaf is lost. -/
theorem flat_map_exact {document : Yaml} (hnamed : document.NamedSections) :
    (∀ leaf, leaf ∈ document.listing ↔ document.HasLeaf leaf) ∧
    document.listing.Pairwise (·.place < ·.place) ∧
    (∀ key, (ofDocument document).contains key
      ↔ ∃ leaf, document.HasLeaf leaf ∧ leaf.flatKey = key) ∧
    (∀ key value, (ofDocument document).find? key = some value
      ↔ ∃ leaf : Leaf, leaf.IsLast document.listing (·.flatKey = key) ∧ leaf.value = value) ∧
    (document.EachMapping PlainNames →
      (document.listing.map Leaf.flatKey).Nodup ∧
      (ofDocument document).entries.length = document.listing.length) := by
  have hgiven : ∀ leaf ∈ document.listing, leaf.givenKey = leaf.flatKey := fun leaf hleaf =>
    hnamed.givenKey_eq ((mem_listing document leaf).1 hleaf)
  refine ⟨mem_listing document, pairwise_listing document, fun key => ?_, fun key value => ?_,
    fun hplain => ?_⟩
  · rw [contains_ofDocument_iff]
    refine exists_congr fun leaf => ?_
    rw [mem_listing]
    exact and_congr_right fun hleaf => by rw [hnamed.givenKey_eq hleaf]
  · rw [find?_ofDocument_eq_some_iff]
    refine exists_congr fun leaf => and_congr_left' ?_
    exact Leaf.isLast_congr (fun other hother => by rw [hgiven other hother]) leaf
  · have hnodup : (document.listing.map Leaf.flatKey).Nodup := nodup_flatKeys hplain
    have hkeys : (documentLeaves document).map (·.1) = document.listing.map Leaf.flatKey := by
      rw [documentLeaves_eq_map_listing, List.map_map]
      exact List.map_congr_left hgiven
    refine ⟨hnodup, ?_⟩
    rw [ofDocument, (Dict.length_ofList_eq_iff _).2 (hkeys ▸ hnodup),
      documentLeaves_eq_map_listing, List.length_map]

/-- A dotted key and a nested one that come to the same flat key, an empty key below, and a mapping
without entries. -/
def dottedDocument : Yaml :=
  .mapping [
    (.string "a.b", .string "literal"),
    (.string "a", .tagged ⟨"t"⟩ (.mapping [
      (.string "b", .tagged ⟨"u"⟩ (.string "nested")),
      (.string "", .mapping [(.number (.int 80), .null)])])),
    (.null, .mapping [])]

theorem namedSections_dottedDocument : dottedDocument.NamedSections := by
  intro entries hentries
  obtain rfl := mapping.inj hentries
  decide

def plainDocument : Yaml :=
  .mapping [
    (.string "ports", .mapping [(.number (.int 80), .null), (.bool true, .string "t")]),
    (.string "true", .sequence [])]

theorem namedSections_plainDocument : plainDocument.NamedSections := by
  intro entries hentries
  obtain rfl := mapping.inj hentries
  decide

theorem plainNames_plainDocument : plainDocument.EachMapping PlainNames := by
  refine .mapping rfl ⟨by decide, by decide⟩ ?_
  rw [List.forall_mem_cons, List.forall_mem_singleton]
  refine ⟨.mapping rfl ⟨by decide, by decide⟩ ?_, .leaf (by decide)⟩
  rw [List.forall_mem_cons, List.forall_mem_singleton]
  exact ⟨.leaf (by decide), .leaf (by decide)⟩

theorem flat_map_exact_dotted :
    dottedDocument.NamedSections ∧
    (ofDocument dottedDocument).find? "a.b" = some (.tagged ⟨"u"⟩ (.string "nested")) ∧
    (ofDocument dottedDocument).contains "a..80" ∧
    plainDocument.NamedSections ∧ plainDocument.EachMapping PlainNames ∧
    (ofDocument plainDocument).entries.length = 3 := by
  have hdotted := flat_map_exact namedSections_dottedDocument
  have hplain := flat_map_exact namedSections_plainDocument
  refine ⟨namedSections_dottedDocument, ?_, ?_, namedSections_plainDocument,
    plainNames_plainDocument, (hplain.2.2.2.2 plainNames_plainDocument).2⟩
  · refine (hdotted.2.2.2.1 "a.b" _).2
      ⟨⟨[1, 0], [.string "a", .string "b"], .tagged ⟨"u"⟩ (.string "nested")⟩, ?_, rfl⟩
    exact ⟨[⟨[0], [.string "a.b"], .string "literal"⟩],
      [⟨[1, 1, 0], [.string "a", .string "", .number (.int 80)], .null⟩], rfl, by decide, by decide⟩
  · refine (hdotted.2.2.1 "a..80").2
      ⟨⟨[1, 1, 0], [.string "a", .string "", .number (.int 80)], .null⟩, ?_, by decide⟩
    exact (hdotted.1 _).1 (by decide)

end Dotpath
