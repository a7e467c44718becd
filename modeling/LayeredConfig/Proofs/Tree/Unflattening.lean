import LayeredConfig.Proofs.Tree.Flattening

/-!
# Unflattening builds clean trees

Placing a leaf at an addressable path keeps a tree clean, so every flat tree of leaves whose keys
do not start with a dot is unflattened to a clean tree.
-/

namespace LayeredConfig.Tree

/-- A property of trees that altering one of some keys establishes from the property, or from an
empty tree. -/
def KeptByAltering (P : Tree → Prop) (list : List Text) : Prop :=
  ∀ tree, tree = [] ∨ P tree → ∀ key ∈ list, ∀ change, P (Entries.alter key change tree)

private theorem valueNested_put {P : Tree → Prop} {path : List Text} (hkept : KeptByAltering P path)
    {value : Value} (hvalue : ValueNested P value) {old : Option Value}
    (hold : ∀ v, old = some v → ValueNested P v) : ValueNested P (put value path old) := by
  induction path generalizing old with
  | nil => exact hvalue
  | cons key path ih =>
    have hkept' : KeptByAltering P path := fun tree ht k hk ↦
      hkept tree ht k (List.mem_cons_of_mem _ hk)
    have hbranch : (branchOf old = [] ∨ P (branchOf old)) ∧ Nested P (branchOf old) := by
      match old with
      | none => exact ⟨Or.inl rfl, trivial⟩
      | some (.scalar s) => exact ⟨Or.inl rfl, trivial⟩
      | some (.tree below) =>
        obtain ⟨hp, hn⟩ := hold _ rfl
        exact ⟨Or.inr hp, hn⟩
    refine ⟨hkept _ hbranch.1 key List.mem_cons_self _, nested_alter hbranch.2 (ih hkept' ?_)⟩
    intro v hv
    exact valueNested_of_mem hbranch.2 (Entries.mem_of_find? hv)

private theorem nested_place {P : Tree → Prop} {path : List Text}
    (hkept : KeptByAltering P path.tail)
    {value : Value} (hvalue : ValueNested P value) {tree : Tree} (h : Nested P tree) :
    Nested P (place value path tree) := by
  cases path with
  | nil => exact h
  | cons key path =>
    apply nested_alter h
    apply valueNested_put hkept hvalue
    intro v hv
    exact valueNested_of_mem h (Entries.mem_of_find? hv)

private theorem keptByAltering_distinct (list : List Text) :
    KeptByAltering Entries.Distinct list := by
  rintro tree (rfl | h) key - change
  · exact Entries.distinct_alter key change List.nodup_nil
  · exact Entries.distinct_alter key change h

private theorem keptByAltering_ne_nil (list : List Text) : KeptByAltering (· ≠ []) list :=
  fun tree _ key _ change ↦ Entries.alter_ne_nil key change tree

private theorem keptByAltering_keys {Q : Text → Prop} {list : List Text} (h : ∀ key ∈ list, Q key) :
    KeptByAltering (fun t ↦ ∀ key ∈ Entries.keys t, Q key) list := by
  rintro tree (rfl | ht) key hkey change
  · exact Entries.forall_mem_keys_alter change (fun k hk ↦ absurd hk List.not_mem_nil) (h key hkey)
  · exact Entries.forall_mem_keys_alter change ht (h key hkey)

private theorem Clean.place {tree : Tree} (h : Clean tree) {path : List Text}
    (hpath : Addressable path)
    (s : Scalar) : Clean (Tree.place (.scalar s) path tree) := by
  cases path with
  | nil => exact absurd rfl hpath.ne_nil
  | cons head rest =>
    have hdot := hpath.dotless
    have hleaf : ∀ P, ValueNested P (.scalar s) := fun _ ↦ trivial
    constructor
    · exact ⟨Entries.distinct_alter _ _ h.wellKeyed.1,
        nested_place (keptByAltering_distinct rest) (hleaf _) h.wellKeyed.2⟩
    · refine ⟨Entries.forall_mem_keys_alter _ h.dotless.1 (hdot head List.mem_cons_self), ?_⟩
      refine nested_place (keptByAltering_keys fun key hk ↦ ?_) (hleaf _) h.dotless.2
      exact hdot key (List.mem_cons_of_mem _ hk)
    · exact nested_place (keptByAltering_ne_nil rest) (hleaf _) h.full
    · exact nested_place (keptByAltering_keys hpath.quoted) (hleaf _) h.quoted
    · intro entry he htree
      rcases Entries.mem_of_mem_alter he with he | rfl
      · exact h.named entry he htree
      · apply hpath.named head rfl
        rintro hrest
        simp only [List.tail_cons] at hrest
        subst hrest
        exact Bool.noConfusion htree

/-- A flat tree: distinct keys, none of which starts with a separator, over leaves only. -/
structure Flat (flat : Tree) : Prop where
  distinct : Entries.Distinct flat
  leaves : ∀ entry ∈ flat, entry.2.isTree = false
  undotted : ∀ entry ∈ flat, entry.1.bare.toList.head? ≠ some separator

/-- The values of a flat tree are leaves. -/
theorem Flat.exists_scalar {flat : Tree} (h : Flat flat) {entry : Text × Value}
    (he : entry ∈ flat) : ∃ s, entry.2 = .scalar s := by
  have hleaf := h.leaves entry he
  cases hv : entry.2 with
  | scalar s => exact ⟨s, rfl⟩
  | tree entries =>
    rw [hv] at hleaf
    exact Bool.noConfusion hleaf

private theorem clean_placeAll {flat tree : Tree} (h : Clean tree)
    (hleaves : ∀ entry ∈ flat, ∃ s, entry.2 = .scalar s)
    (hdot : ∀ entry ∈ flat, entry.1.bare.toList.head? ≠ some separator) :
    Clean (placeAll (flat.map spelledTip) tree) := by
  induction flat generalizing tree with
  | nil => exact h
  | cons entry rest ih =>
    obtain ⟨⟨s, hs⟩, hleaves⟩ := List.forall_mem_cons.mp hleaves
    obtain ⟨hhead, hdot⟩ := List.forall_mem_cons.mp hdot
    refine ih ?_ hleaves hdot
    simp only [spelledTip, hs]
    exact h.place (addressable_pathOf hhead) s

/-- A flat tree is unflattened to a clean tree. -/
theorem clean_unflatten {flat : Tree} (h : Flat flat) : Clean (unflatten flat) := by
  have hempty : Clean [] := by constructor <;> decide
  rw [unflatten_eq_placeAll]
  exact clean_placeAll hempty (fun _ ↦ h.exists_scalar) h.undotted

end LayeredConfig.Tree
