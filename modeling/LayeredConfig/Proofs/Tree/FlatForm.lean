import LayeredConfig.Proofs.Entries.Building
import LayeredConfig.Proofs.Tree.Flattening
import Mathlib.Data.List.Nodup

/-!
# The flat form of any tree

Every leaf of a tree has a dotted key, the bare texts on its path with dots between them. The flat
form has one entry for each dotted key, at the place of the first leaf with that key and with the
value of the last one, so flattening again changes nothing. Where texts have no dots and siblings
below the root differ in their texts, dotted keys tell leaves apart and none is lost.
-/

namespace LayeredConfig.Tree

/-! ### Dotted keys -/

/-- The dotted key of a path: its bare texts joined by dots, where empty texts in front leave no
dot, with the mark of the first key. -/
def dottedKey (path : List Text) : Text :=
  .tagged (".".intercalate ((path.map Text.bare).dropWhile (· = "")))
    (path.head?.any Text.isLiteral)

/-- The leaves of a tree in depth-first order, each under its dotted key. -/
def dottedLeaves (tree : Tree) : List (Text × Value) :=
  (leaves tree).map fun leaf ↦ (dottedKey leaf.1, leaf.2)

private theorem joinKeys_eq_intercalate (path : String) (list : List Text) :
    joinKeys path list = ".".intercalate ((path :: list.map Text.bare).dropWhile (· = "")) := by
  induction list generalizing path with
  | nil =>
    by_cases hpath : path = ""
    · rw [hpath]
      rfl
    · rw [List.map_nil, List.dropWhile_cons_of_neg (by simpa using hpath),
        String.intercalate_singleton]
      rfl
  | cons key rest ih =>
    by_cases hpath : path = ""
    · have hstep : joinKeys path (key :: rest) = joinKeys key.bare rest := by
        rw [hpath]
        rfl
      have hdrop : (path :: (key :: rest).map Text.bare).dropWhile (· = "")
          = (key.bare :: rest.map Text.bare).dropWhile (· = "") :=
        List.dropWhile_cons_of_pos (by simpa using hpath)
      rw [hstep, ih, hdrop]
    · rw [← String.toList_inj, toList_joinKeys _ hpath,
        List.dropWhile_cons_of_neg (by simpa using hpath), String.toList_intercalate]
      simp [Function.comp_def, separator]

/-- The flat key of a path is its dotted key. -/
theorem flatKey_eq_dottedKey (path : List Text) : flatKey path = dottedKey path := by
  cases path with
  | nil => rfl
  | cons head rest =>
    rw [flatKey, dottedKey, joinKeys_eq_intercalate, List.map_cons]
    simp

/-- Flattening builds entries from the leaves under their dotted keys. -/
theorem flatten_eq_ofList_dottedLeaves (tree : Tree) :
    flatten tree = Entries.ofList (dottedLeaves tree) := by
  rw [flatten_eq_ofList, dottedLeaves]
  exact congrArg (fun entry ↦ Entries.ofList ((leaves tree).map entry))
    (funext fun leaf ↦ Prod.ext (flatKey_eq_dottedKey leaf.1) rfl)

/-- Leaves with dotted keys of their own are the flat form. -/
theorem flatten_eq_dottedLeaves {tree : Tree} (h : Entries.Distinct (dottedLeaves tree)) :
    flatten tree = dottedLeaves tree := by
  rw [flatten_eq_ofList_dottedLeaves, Entries.ofList_of_distinct h]

/-- There are as many dotted leaves as leaves. -/
theorem length_dottedLeaves (tree : Tree) : (dottedLeaves tree).length = leafCount tree := by
  rw [dottedLeaves, List.length_map, length_leaves]

/-- Every entry of a flat form stands for a leaf. -/
theorem exists_leaf_of_mem_flatten {tree : Tree} {entry : Text × Value}
    (h : entry ∈ flatten tree) : ∃ leaf ∈ leaves tree, (dottedKey leaf.1, leaf.2) = entry := by
  rw [flatten_eq_ofList_dottedLeaves] at h
  obtain ⟨before, after, hsplit, -⟩ := (Entries.mem_ofList_iff entry.1 entry.2 _).mp h
  have hmem : entry ∈ dottedLeaves tree := by
    rw [hsplit]
    exact List.mem_append_right _ List.mem_cons_self
  exact List.mem_map.mp hmem

/-- The entries of a flat form hold scalars. -/
theorem exists_scalar_of_mem_flatten {tree : Tree} {entry : Text × Value}
    (h : entry ∈ flatten tree) : ∃ s, entry.2 = .scalar s := by
  obtain ⟨leaf, hleaf, rfl⟩ := exists_leaf_of_mem_flatten h
  exact exists_scalar_of_mem_leaves hleaf

/-! ### Flattening again -/

private theorem dottedLeaves_of_scalars {flat : Tree}
    (h : ∀ entry ∈ flat, ∃ s, entry.2 = .scalar s) :
    dottedLeaves flat = flat := by
  induction flat with
  | nil => rfl
  | cons entry rest ih =>
    rcases entry with ⟨key, value⟩
    obtain ⟨⟨s, hs⟩, hrest⟩ := List.forall_mem_cons.mp h
    dsimp only at hs
    subst hs
    have hkey : dottedKey [key] = key := by
      rw [← flatKey_eq_dottedKey]
      exact Text.tagged_bare_isLiteral key
    have hstep : dottedLeaves ((key, .scalar s) :: rest)
        = (dottedKey [key], .scalar s) :: dottedLeaves rest := rfl
    rw [hstep, hkey, ih hrest]

private theorem flatten_flatten (tree : Tree) : flatten (flatten tree) = flatten tree := by
  rw [flatten_eq_ofList_dottedLeaves (flatten tree),
    dottedLeaves_of_scalars fun _ ↦ exists_scalar_of_mem_flatten]
  apply Entries.ofList_of_distinct
  rw [flatten_eq_ofList_dottedLeaves]
  exact Entries.distinct_ofList _

/-! ### Leaves that dotted keys tell apart -/

/-- A tree in which a dotted key tells where its leaf stands: no text has a dot, a root key that
holds a tree has a text, and siblings below the root have different texts. -/
structure Unambiguous (tree : Tree) : Prop where
  distinct : Entries.Distinct tree
  siblings : Nested (fun t ↦ ((Entries.keys t).map Text.bare).Nodup) tree
  dotless : Everywhere (fun t ↦ ∀ key ∈ Entries.keys t, separator ∉ key.bare.toList) tree
  named : ∀ entry ∈ tree, entry.2.isTree → entry.1.bare ≠ ""

private theorem nodup_rootMarked {tree : Tree} (hdistinct : Entries.Distinct tree)
    (hsiblings : Nested (fun t ↦ ((Entries.keys t).map Text.bare).Nodup) tree) :
    ((tips tree).map fun tip ↦ rootMarked tip.1).Nodup := by
  induction tree with
  | nil => simp
  | cons entry rest ih =>
    rcases entry with ⟨key, value⟩
    obtain ⟨hnew, hrest⟩ := List.nodup_cons.mp hdistinct
    refine nodup_map_tips_cons (f := rootMarked) ?_ (ih hrest hsiblings.2) ?_
    · cases value with
      | scalar s => simp [valueTips]
      | tree below =>
        have htail : ∀ path, (rootMarked (key :: path)).tail.map Text.bare
            = path.map Text.bare := by
          intro path
          rw [rootMarked, List.tail_cons, List.map_map]
          rfl
        have hbelow : ((tips below).map fun tip ↦ rootMarked (key :: tip.1)).Nodup := by
          refine List.Nodup.of_map (fun path ↦ path.tail.map Text.bare) ?_
          rw [List.map_map]
          simp only [Function.comp_def, htail]
          exact nodup_map_paths_tips Text.bare hsiblings.1
        exact nodup_map_valueTips (f := fun path ↦ rootMarked (key :: path)) hbelow
    · intro other ho path path' he
      exact hnew ((List.cons.inj he).1 ▸ ho)

private theorem Unambiguous.distinct_dottedLeaves {tree : Tree} (h : Unambiguous tree) :
    Entries.Distinct (dottedLeaves tree) := by
  have hspelled : ∀ tip ∈ tips tree, pathOf (dottedKey tip.1) = rootMarked tip.1 := by
    intro tip ht
    obtain ⟨entry, he, inner, hi, hbelow⟩ := (mem_tips_iff tip tree).mp ht
    rw [← flatKey_eq_dottedKey]
    refine pathOf_flatKey_eq_rootMarked (path_ne_nil_of_mem_tips ht)
      (forall_mem_path_of_everywhere h.dotless ht) ?_
    rw [← hbelow]
    intro key hk hrest
    rcases Option.some.inj hk with rfl
    exact h.named entry he (isTree_of_mem_valueTips hi hrest)
  have htips : ((tips tree).map fun tip ↦ dottedKey tip.1).Nodup := by
    refine List.Nodup.of_map pathOf ?_
    rw [List.map_map]
    have hroot := nodup_rootMarked h.distinct h.siblings
    rwa [← List.map_congr_left hspelled] at hroot
  rw [Entries.Distinct, Entries.keys, dottedLeaves, List.map_map]
  exact htips.sublist (List.filter_sublist.map _)

/-- **What flattening gives.** The flat form of a tree has one entry for each dotted key of its
leaves, in the order of first occurrence and each with the value of the last leaf under its key, so
it has at most as many entries as the tree has leaves, and flattening it again changes nothing. The
leaves of an unambiguous tree have different dotted keys, so there the flat form lists them all. -/
theorem flatten_lists_dottedLeaves (tree : Tree) :
    Entries.keys (flatten tree) = (Entries.keys (dottedLeaves tree)).eraseDups ∧
      (∀ key value, (key, value) ∈ flatten tree ↔
        ∃ before after, dottedLeaves tree = before ++ (key, value) :: after ∧
          key ∉ Entries.keys after) ∧
      (∀ entry ∈ flatten tree, ∃ s, entry.2 = .scalar s) ∧
      (flatten tree).length ≤ leafCount tree ∧
      flatten (flatten tree) = flatten tree ∧
      (Unambiguous tree →
        (Entries.keys (dottedLeaves tree)).Nodup ∧ flatten tree = dottedLeaves tree ∧
          (flatten tree).length = leafCount tree) := by
  have hbuilt := flatten_eq_ofList_dottedLeaves tree
  refine ⟨?_, ?_, fun _ ↦ exists_scalar_of_mem_flatten, ?_, flatten_flatten tree, ?_⟩
  · rw [hbuilt, Entries.keys_ofList]
  · intro key value
    rw [hbuilt, Entries.mem_ofList_iff]
  · rw [hbuilt, ← length_dottedLeaves]
    exact Entries.length_ofList_le _
  · intro h
    have hdistinct := h.distinct_dottedLeaves
    rw [flatten_eq_dottedLeaves hdistinct, length_dottedLeaves]
    exact ⟨hdistinct, rfl, rfl⟩

/-- An unambiguous tree with literal keys below the root, empty texts and an empty branch, and with
one text under both marks at its root. -/
def nestedMarks : Tree :=
  [(.quoted "a", .tree
      [(.literal "", .tree [(.quoted "b", .scalar (.bool true)), (.quoted "", .scalar .null)]),
        (.literal "c", .scalar (.integer 1)), (.quoted "d", .tree [])]),
    (.literal "a", .tree [(.quoted "c", .scalar (.integer 2))]),
    (.quoted "", .scalar (.text (.literal "PHP_EOL")))]

/-- None of its leaves is lost. -/
theorem flatten_lists_dottedLeaves_nestedMarks :
    Unambiguous nestedMarks ∧ flatten nestedMarks = dottedLeaves nestedMarks ∧
      (flatten nestedMarks).length = leafCount nestedMarks := by
  have h : Unambiguous nestedMarks := by constructor <;> decide
  obtain ⟨-, -, -, -, -, hlisted⟩ := flatten_lists_dottedLeaves nestedMarks
  exact ⟨h, (hlisted h).2⟩

/-- Where dotted keys collide, the first leaf gives the place and the last one the value. -/
example :
    flatten [(.quoted "", .tree [(.quoted "a.b", .scalar (.integer 1))]),
      (.quoted "c", .scalar .null),
      (.quoted "a", .tree [(.literal "b", .scalar (.integer 2)),
        (.quoted "b", .scalar (.integer 3))])]
      = [(.quoted "a.b", .scalar (.integer 3)), (.quoted "c", .scalar .null)] := by decide

end LayeredConfig.Tree
