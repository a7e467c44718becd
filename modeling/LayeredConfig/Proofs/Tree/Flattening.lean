import LayeredConfig.Proofs.Tree.DotPath
import LayeredConfig.Proofs.Tree.Overlay

/-!
# Flattening a clean tree

A clean tree is one whose tips all have flat keys of their own. Its flat form lists the tips in
depth-first order, and unflattening places them again one after the other, which gives the tree
back with its order and its marks.
-/

namespace LayeredConfig.Tree

/-- A tree that its flat form describes: keys are distinct and without dots, no nested tree is
empty, only root keys may be literal, and a root key that holds a tree has a text. -/
structure Clean (tree : Tree) : Prop where
  wellKeyed : WellKeyed tree
  dotless : Everywhere (fun t ↦ ∀ key ∈ Entries.keys t, separator ∉ key.bare.toList) tree
  full : Nested (· ≠ []) tree
  quoted : Nested (fun t ↦ ∀ key ∈ Entries.keys t, key.isLiteral = false) tree
  named : ∀ entry ∈ tree, entry.2.isTree → entry.1.bare ≠ ""

/-- The entry of a flat tree that stands for a tip. -/
def flatEntry (tip : Tip) : Text × Value := (flatKey tip.1, tip.2)

private theorem flattenBelow_eq (path : String) (isLiteral : Bool) (flat branch : Tree) :
    flattenBelow path isLiteral flat branch
      = (leaves branch).foldl (fun flat leaf ↦
          Entries.insert (.tagged (joinKeys path leaf.1) isLiteral) leaf.2 flat) flat := by
  induction branch using induct generalizing path flat with
  | nil => rw [flattenBelow, leaves_nil, List.foldl_nil]
  | leaf key s rest ih =>
    rw [flattenBelow, flattenAt, ih, leaves_leaf, List.foldl_cons]
    rfl
  | branch key below rest ihb ihr =>
    rw [flattenBelow, flattenAt, ihb, ihr, leaves_branch, List.foldl_append, List.foldl_map]
    rfl

private theorem foldl_flattenAt_eq (flat tree : Tree) :
    tree.foldl (fun flat (key, value) ↦ flattenAt key.bare key.isLiteral flat value) flat
      = (leaves tree).foldl (fun flat leaf ↦ Entries.insert (flatKey leaf.1) leaf.2 flat) flat := by
  induction tree generalizing flat with
  | nil => rfl
  | cons entry rest ih =>
    rw [List.foldl_cons, ih]
    rcases entry with ⟨key, s | below⟩
    · dsimp only
      rw [flattenAt, leaves_leaf, List.foldl_cons]
      rfl
    · dsimp only
      rw [flattenAt, flattenBelow_eq, leaves_branch, List.foldl_append, List.foldl_map]
      rfl

/-- Flattening builds entries from the leaves of a tree. -/
theorem flatten_eq_ofList (tree : Tree) :
    flatten tree = Entries.ofList ((leaves tree).map flatEntry) := by
  rw [flatten, foldl_flattenAt_eq, Entries.ofList, List.foldl_map]
  rfl

/-- A value with tips below keys is a tree. -/
theorem isTree_of_mem_valueTips {value : Value} {tip : Tip} (h : tip ∈ valueTips value)
    (hpath : tip.1 ≠ []) : value.isTree := by
  cases value with
  | scalar s =>
    rcases List.mem_singleton.mp h with rfl
    exact absurd rfl hpath
  | tree entries => rfl

/-- Every tip of a clean tree has an addressable path. -/
theorem Clean.addressable {tree : Tree} (h : Clean tree) {tip : Tip} (ht : tip ∈ tips tree) :
    Addressable tip.1 := by
  obtain ⟨entry, he, inner, hi, rfl⟩ := (mem_tips_iff tip tree).mp ht
  constructor
  · exact path_ne_nil_of_mem_tips ht
  · exact forall_mem_path_of_everywhere h.dotless ht
  · exact forall_mem_path_of_valueNested (valueNested_of_mem h.quoted he) hi
  · intro key hk hrest
    rcases Option.some.inj hk with rfl
    exact h.named entry he (isTree_of_mem_valueTips hi hrest)

/-- The tips of a clean tree have flat keys of their own. -/
theorem Clean.distinct_flatEntry {tree : Tree} (h : Clean tree) :
    Entries.Distinct ((tips tree).map flatEntry) := by
  rw [Entries.Distinct, Entries.keys, List.map_map]
  apply List.pairwise_map.mpr
  apply List.Pairwise.imp_of_mem _ (List.pairwise_map.mp (nodup_paths_tips h.wellKeyed))
  intro a b ha hb hab he
  apply hab
  rw [← pathOf_flatKey (h.addressable ha), ← pathOf_flatKey (h.addressable hb)]
  exact congrArg pathOf he

/-- The flat form of a clean tree lists the entries of its tips. -/
theorem flatten_eq_map_tips {tree : Tree} (h : Clean tree) :
    flatten tree = (tips tree).map flatEntry := by
  rw [flatten_eq_ofList, leaves_eq_tips h.full,
    Entries.ofList_of_distinct h.distinct_flatEntry]

/-- The flat keys of a clean tree are distinct. -/
theorem distinct_flatten {tree : Tree} (h : Clean tree) : Entries.Distinct (flatten tree) := by
  rw [flatten_eq_map_tips h]
  exact h.distinct_flatEntry

/-- Every entry of the flat form of a clean tree stands for a tip. -/
theorem exists_tip_of_mem_flatten {tree : Tree} (h : Clean tree) {entry : Text × Value}
    (he : entry ∈ flatten tree) : ∃ tip ∈ tips tree, flatEntry tip = entry := by
  rw [flatten_eq_map_tips h] at he
  exact List.mem_map.mp he

/-- The tip that an entry of a flat tree spells. -/
def spelledTip (entry : Text × Value) : Tip := (pathOf entry.1, entry.2)

/-- Unflattening places the tips that the entries of a flat tree spell. -/
theorem unflatten_eq_placeAll (flat : Tree) :
    unflatten flat = placeAll (flat.map spelledTip) [] := by
  simp only [unflatten, placeAll, List.foldl_map, insertFlat_eq_place, spelledTip]

/-- The entries of a flattened clean tree spell its tips. -/
theorem map_spelledTip_flatten {tree : Tree} (h : Clean tree) :
    (flatten tree).map spelledTip = tips tree := by
  rw [flatten_eq_map_tips h, List.map_map]
  calc
    (tips tree).map (spelledTip ∘ flatEntry) = (tips tree).map id := by
      apply List.map_congr_left
      intro tip ht
      have hpath := pathOf_flatKey (h.addressable ht)
      simp only [Function.comp_apply, spelledTip, flatEntry, hpath]
      rfl
    _ = tips tree := List.map_id _

/-- Placing the tips of a clean tree in order builds it. -/
theorem placeAll_tips_nil {tree : Tree} (h : Clean tree) : placeAll (tips tree) [] = tree := by
  rw [placeAll_tips [] h.wellKeyed h.full, merge_empty h.wellKeyed.1]

/-- A clean tree is rebuilt from its flat form, with all entries and marks in order. -/
theorem unflatten_flatten (tree : Tree) (h : Clean tree) : unflatten (flatten tree) = tree := by
  rw [unflatten_eq_placeAll, map_spelledTip_flatten h, placeAll_tips_nil h]

/-- A clean tree with one text under both marks at its root, and with empty nested keys. -/
def twoMarks : Tree :=
  [(.quoted "a", .tree
      [(.quoted "", .tree [(.quoted "b", .scalar (.bool true))]), (.quoted "c", .scalar .null)]),
    (.literal "a", .tree [(.quoted "", .scalar (.integer 1))]),
    (.quoted "", .scalar (.text (.literal "PHP_EOL")))]

/-- A tree with both marks and with empty keys is rebuilt. -/
theorem unflatten_flatten_twoMarks :
    Clean twoMarks ∧ unflatten (flatten twoMarks) = twoMarks := by
  have h : Clean twoMarks := by constructor <;> decide
  exact ⟨h, unflatten_flatten twoMarks h⟩

/-- The empty keys of that tree show in its flat keys. -/
example : Entries.keys (flatten twoMarks)
    = [.quoted "a..b", .quoted "a.c", .literal "a.", .quoted ""] := by decide

end LayeredConfig.Tree
