import LayeredConfig.Proofs.Tree.Place
import LayeredConfig.Tree.Merge

/-!
# Merging tip by tip

Where keys are distinct and no nested tree is empty, laying a tree over another one is placing its
tips one after the other. A tree laid over nothing is that tree.
-/

namespace LayeredConfig.Tree

/-- A tree after tips are placed in it one after the other. -/
def placeAll (list : List Tip) (tree : Tree) : Tree :=
  list.foldl (fun tree tip ↦ place tip.2 tip.1 tree) tree

/-- No tips change nothing. -/
@[simp] theorem placeAll_nil (tree : Tree) : placeAll [] tree = tree := rfl

/-- The first tip is placed first. -/
@[simp] theorem placeAll_cons (tip : Tip) (list : List Tip) (tree : Tree) :
    placeAll (tip :: list) tree = placeAll list (place tip.2 tip.1 tree) := rfl

/-- Two lists of tips are placed in order. -/
theorem placeAll_append (first second : List Tip) (tree : Tree) :
    placeAll (first ++ second) tree = placeAll second (placeAll first tree) :=
  List.foldl_append

private theorem place_below (value : Value) (key : Text) {path : List Text} (tree : Tree)
    (h : path ≠ []) :
    place value (key :: path) tree
      = Entries.alter key (fun old ↦ .tree (place value path (branchOf old))) tree := by
  cases path with
  | nil => exact absurd rfl h
  | cons next path => rfl

private theorem placeAll_below (key : Text) {list : List Tip} (tree : Tree) (hne : list ≠ [])
    (hpath : ∀ tip ∈ list, tip.1 ≠ []) :
    placeAll (list.map (Tip.below key)) tree
      = Entries.alter key (fun old ↦ .tree (placeAll list (branchOf old))) tree := by
  induction list generalizing tree with
  | nil => exact absurd rfl hne
  | cons tip rest ih =>
    obtain ⟨htip, hrest⟩ := List.forall_mem_cons.mp hpath
    rw [List.map_cons, placeAll_cons, Tip.below, place_below tip.2 key tree htip]
    by_cases hr : rest = []
    · subst hr
      rfl
    · rw [ih _ hr hrest, Entries.alter_alter]
      rfl

private theorem merge_of_distinct (overlay base : Tree) (h : Entries.Distinct (base ++ overlay)) :
    merge base overlay = base ++ overlay := by
  induction overlay generalizing base with
  | nil => rw [merge_nil, List.append_nil]
  | cons entry rest ih =>
    rcases entry with ⟨key, value⟩
    have hnew := Entries.not_mem_keys_of_distinct_append h
    have hvalue : mergeValue none value = value := by
      cases value with
      | scalar s => exact mergeValue_scalar none s
      | tree entries => exact mergeValue_tree_of_not_tree entries (by simp)
    rw [merge_cons, Entries.alter_of_not_mem key _ hnew, hvalue, ih]
    · simp
    · simpa using h

/-- A tree laid over nothing stays as it is. -/
theorem merge_empty {tree : Tree} (h : Entries.Distinct tree) : merge [] tree = tree :=
  merge_of_distinct tree [] h

/-- A tree is laid over what a key holds, or over nothing where that is no tree. -/
theorem mergeValue_tree (old : Option Value) {below : Tree} (h : Entries.Distinct below) :
    mergeValue old (.tree below) = .tree (merge (branchOf old) below) := by
  match old with
  | some (.tree entries) => exact mergeValue_tree_tree entries below
  | some (.scalar s) =>
    rw [mergeValue_tree_of_not_tree below (by simp), branchOf_scalar, merge_empty h]
  | none => rw [mergeValue_tree_of_not_tree below (by simp), branchOf_none, merge_empty h]

/-- Merging is placing the tips of the later tree one after the other. -/
theorem placeAll_tips {overlay : Tree} (base : Tree) (hkeys : WellKeyed overlay)
    (hfull : Nested (· ≠ []) overlay) : placeAll (tips overlay) base = merge base overlay := by
  induction overlay using induct generalizing base with
  | nil => rw [tips_nil, placeAll_nil, merge_nil]
  | leaf key s rest ih =>
    obtain ⟨-, hkr⟩ := (wellKeyed_leaf key s rest).mp hkeys
    have hfr := (nested_leaf _ key s rest).mp hfull
    rw [tips_leaf, placeAll_cons, ih _ hkr hfr, merge_cons]
    simp only [mergeValue_scalar]
    rfl
  | branch key below rest ihb ihr =>
    obtain ⟨-, hkb, hkr⟩ := (wellKeyed_branch key below rest).mp hkeys
    obtain ⟨hfb, hfr⟩ := (nested_branch _ key below rest).mp hfull
    have hlaid : (fun old ↦ Value.tree (placeAll (tips below) (branchOf old)))
        = fun old ↦ mergeValue old (.tree below) := by
      funext old
      rw [ihb _ hkb hfb.2, mergeValue_tree old hkb.1]
    rw [tips_branch key rest hfb.1, placeAll_append,
      placeAll_below key base (tips_ne_nil hfb.1) (fun _ ↦ path_ne_nil_of_mem_tips),
      hlaid, ihr _ hkr hfr, merge_cons]

end LayeredConfig.Tree
