import LayeredConfig.Proofs.Tree.Overlay

/-!
# What a merge holds at each path

Laying a tree over another one lays the slot of every key over the slot of the same key. A path that
goes on below a leaf of the upper tree leads nowhere in the merge; at every other path the merge
holds what the two trees hold there, laid over each other.
-/

namespace LayeredConfig.Tree

/-- What lies at a path of a tree. -/
def valueAt (path : List Text) (tree : Tree) : Option Value := get path (some (.tree tree))

/-- A slot after another one is laid over it. An empty slot changes nothing. -/
def layOver (old : Option Value) : Option Value → Option Value
  | none => old
  | some value => some (mergeValue old value)

/-- A tree that is laid over a slot is laid over the entries below it. -/
theorem layOver_tree (old : Option Value) {below : Tree} (h : Entries.Distinct below) :
    layOver old (some (.tree below)) = some (.tree (merge (branchOf old) below)) :=
  congrArg some (mergeValue_tree old h)

/-! ### One level -/

/-- The keys of a merge are those of the lower tree, followed by the new ones of the upper tree. -/
theorem keys_merge (base : Tree) {overlay : Tree} (h : Entries.Distinct overlay) :
    Entries.keys (merge base overlay)
      = Entries.keys base ++ (Entries.keys overlay).filter (· ∉ Entries.keys base) := by
  induction overlay generalizing base with
  | nil =>
    rw [merge_nil]
    exact (List.append_nil _).symm
  | cons entry rest ih =>
    rcases entry with ⟨key, value⟩
    obtain ⟨hnew, hrest⟩ : key ∉ Entries.keys rest ∧ Entries.Distinct rest := List.nodup_cons.mp h
    have hcons : Entries.keys ((key, value) :: rest) = key :: Entries.keys rest := rfl
    rw [merge_cons, ih _ hrest, Entries.keys_alter, hcons]
    by_cases hmem : key ∈ Entries.keys base
    · rw [if_pos hmem, List.filter_cons_of_neg (by simpa using hmem)]
    · rw [if_neg hmem, List.filter_cons_of_pos (by simpa using hmem), List.append_assoc,
        List.singleton_append]
      -- the keys behind the new one differ from it
      have hbehind : ∀ other ∈ Entries.keys rest,
          decide (other ∉ Entries.keys base ++ [key]) = decide (other ∉ Entries.keys base) := by
        intro other ho
        have hne : other ≠ key := fun he ↦ hnew (he ▸ ho)
        simp [hne]
      rw [List.filter_congr hbehind]

/-- Distinct keys are still distinct after a merge. -/
theorem distinct_merge {base : Tree} (hbase : Entries.Distinct base) (overlay : Tree) :
    Entries.Distinct (merge base overlay) := by
  induction overlay generalizing base with
  | nil => rwa [merge_nil]
  | cons entry rest ih =>
    rw [merge_cons]
    exact ih (Entries.distinct_alter entry.1 _ hbase)

/-- A key of a merge holds what the two trees hold under it, laid over each other. -/
theorem find?_merge (base : Tree) {overlay : Tree} (h : Entries.Distinct overlay) (key : Text) :
    Entries.find? key (merge base overlay)
      = layOver (Entries.find? key base) (Entries.find? key overlay) := by
  induction overlay generalizing base with
  | nil =>
    rw [merge_nil]
    rfl
  | cons entry rest ih =>
    rcases entry with ⟨k, value⟩
    obtain ⟨hnew, hrest⟩ : k ∉ Entries.keys rest ∧ Entries.Distinct rest := List.nodup_cons.mp h
    rw [merge_cons, ih _ hrest]
    by_cases hk : k = key
    · subst hk
      rw [Entries.find?_alter_self, (Entries.find?_eq_none_iff k rest).mpr hnew, Entries.find?,
        if_pos rfl]
      rfl
    · rw [Entries.find?_alter_of_ne _ _ (Ne.symm hk), Entries.find?, if_neg hk]

/-! ### Paths -/

/-- Whether a path goes on below a leaf. -/
def BelowLeaf (path : List Text) (slot : Option Value) : Prop :=
  ∃ above s, above <+: path ∧ above ≠ path ∧ get above slot = some (.scalar s)

private theorem get_of_belowLeaf {path : List Text} {slot : Option Value}
    (h : BelowLeaf path slot) :
    get path slot = none := by
  obtain ⟨above, s, ⟨more, rfl⟩, hne, hleaf⟩ := h
  cases more with
  | nil => exact absurd (List.append_nil above).symm hne
  | cons key more => rw [get_append, hleaf, get_cons_scalar]

/-- The empty path goes on below nothing. -/
theorem not_belowLeaf_nil (slot : Option Value) : ¬ BelowLeaf [] slot := by
  rintro ⟨above, s, hprefix, hne, -⟩
  exact hne (List.prefix_nil.mp hprefix)

/-- A path over a key of a tree goes on below a leaf when it does so below what the key holds. -/
theorem belowLeaf_cons_tree (key : Text) (path : List Text) (tree : Tree) :
    BelowLeaf (key :: path) (some (.tree tree)) ↔ BelowLeaf path (Entries.find? key tree) := by
  constructor
  · rintro ⟨above, s, hprefix, hne, hleaf⟩
    cases above with
    | nil => cases hleaf
    | cons head above =>
      obtain ⟨rfl, hbehind⟩ := List.cons_prefix_cons.mp hprefix
      exact ⟨above, s, hbehind, fun he ↦ hne (congrArg _ he), hleaf⟩
  · rintro ⟨above, s, hprefix, hne, hleaf⟩
    exact ⟨key :: above, s, List.cons_prefix_cons.mpr ⟨rfl, hprefix⟩,
      fun he ↦ hne (List.cons.inj he).2, hleaf⟩

private theorem get_layOver_of_belowLeaf {path : List Text} (old : Option Value)
    {slot : Option Value}
    (hkeys : ∀ below, slot = some (.tree below) → WellKeyed below) (h : BelowLeaf path slot) :
    get path (layOver old slot) = none := by
  induction path generalizing old slot with
  | nil => exact absurd h (not_belowLeaf_nil slot)
  | cons key path ih =>
    match slot with
    | none =>
      obtain ⟨above, s, -, -, hleaf⟩ := h
      rw [get_none] at hleaf
      cases hleaf
    | some (.scalar s) => exact get_cons_scalar key path s
    | some (.tree below) =>
      have hbelow := hkeys below rfl
      rw [layOver_tree old hbelow.1, get, branchOf_tree, find?_merge _ hbelow.1]
      exact ih _ (fun _ ↦ hbelow.of_find?) ((belowLeaf_cons_tree key path below).mp h)

private theorem get_layOver {path : List Text} (old : Option Value) {slot : Option Value}
    (hkeys : ∀ below, slot = some (.tree below) → WellKeyed below) (h : ¬ BelowLeaf path slot) :
    get path (layOver old slot) = layOver (get path old) (get path slot) := by
  induction path generalizing old slot with
  | nil => rfl
  | cons key path ih =>
    match slot with
    | none =>
      rw [get_none]
      rfl
    | some (.scalar s) =>
      exact absurd ⟨[], s, List.nil_prefix, (List.cons_ne_nil key path).symm, rfl⟩ h
    | some (.tree below) =>
      have hbelow := hkeys below rfl
      rw [belowLeaf_cons_tree] at h
      rw [layOver_tree old hbelow.1, get, branchOf_tree, find?_merge _ hbelow.1,
        ih _ (fun _ ↦ hbelow.of_find?) h]
      rfl

/-- A merge of trees is one laid over the other. -/
theorem layOver_tree_tree (base overlay : Tree) :
    layOver (some (.tree base)) (some (.tree overlay)) = some (.tree (merge base overlay)) :=
  congrArg some (mergeValue_tree_tree base overlay)

/-- Below a leaf of the upper tree a merge holds nothing. -/
theorem valueAt_merge_of_belowLeaf (base : Tree) {overlay : Tree} (h : WellKeyed overlay)
    {path : List Text} (hleaf : BelowLeaf path (some (.tree overlay))) :
    valueAt path (merge base overlay) = none := by
  rw [valueAt, ← layOver_tree_tree]
  refine get_layOver_of_belowLeaf _ (fun below hb ↦ ?_) hleaf
  rwa [← Value.tree.inj (Option.some.inj hb)]

/-- At every other path a merge holds what the trees hold there, laid over each other. -/
theorem valueAt_merge_of_not_belowLeaf (base : Tree) {overlay : Tree} (h : WellKeyed overlay)
    {path : List Text} (hleaf : ¬ BelowLeaf path (some (.tree overlay))) :
    valueAt path (merge base overlay) = layOver (valueAt path base) (valueAt path overlay) := by
  rw [valueAt, ← layOver_tree_tree]
  refine get_layOver _ (fun below hb ↦ ?_) hleaf
  rwa [← Value.tree.inj (Option.some.inj hb)]

/-- What lies at a path of a well-keyed tree is well-keyed. -/
theorem WellKeyed.of_valueAt {tree : Tree} (h : WellKeyed tree) {path : List Text} {below : Tree}
    (hbelow : valueAt path tree = some (.tree below)) : WellKeyed below := by
  induction path generalizing tree with
  | nil =>
    rw [← Value.tree.inj (Option.some.inj hbelow)]
    exact h
  | cons key path ih =>
    rw [valueAt, get, branchOf_tree] at hbelow
    cases hfind : Entries.find? key tree with
    | none =>
      rw [hfind, get_none] at hbelow
      cases hbelow
    | some held =>
      rw [hfind] at hbelow
      cases held with
      | scalar s =>
        cases path with
        | nil => cases hbelow
        | cons next path =>
          rw [get_cons_scalar] at hbelow
          cases hbelow
      | tree inner => exact ih (h.of_find? hfind) hbelow

/-- **A deep merge, path by path.** At every path a merge holds the leaf of the upper tree; the
merge of two trees, with the keys of the lower one in front and the new ones of the upper one behind
them; the tree of the upper tree where the lower one has none; nothing below a leaf of the upper
tree; and what the lower tree holds wherever the upper one says nothing. -/
theorem valueAt_merge (base : Tree) {overlay : Tree} (h : WellKeyed overlay) (path : List Text) :
    (∀ s, valueAt path overlay = some (.scalar s) →
        valueAt path (merge base overlay) = some (.scalar s)) ∧
      (∀ lower upper, valueAt path base = some (.tree lower) →
        valueAt path overlay = some (.tree upper) →
          valueAt path (merge base overlay) = some (.tree (merge lower upper)) ∧
            Entries.keys (merge lower upper)
              = Entries.keys lower ++ (Entries.keys upper).filter (· ∉ Entries.keys lower)) ∧
      (∀ upper, valueAt path overlay = some (.tree upper) →
        (∀ lower, valueAt path base ≠ some (.tree lower)) →
          valueAt path (merge base overlay) = some (.tree upper)) ∧
      (valueAt path overlay = none → BelowLeaf path (some (.tree overlay)) →
        valueAt path (merge base overlay) = none) ∧
      (valueAt path overlay = none → ¬ BelowLeaf path (some (.tree overlay)) →
        valueAt path (merge base overlay) = valueAt path base) := by
  -- a path that leads somewhere in the upper tree does not go on below one of its leaves
  have hlaid : ∀ value, valueAt path overlay = some value →
      valueAt path (merge base overlay) = layOver (valueAt path base) (some value) := by
    intro value hvalue
    rw [← hvalue]
    refine valueAt_merge_of_not_belowLeaf base h fun hleaf ↦ ?_
    have hnone : valueAt path overlay = none := get_of_belowLeaf hleaf
    rw [hnone] at hvalue
    cases hvalue
  refine ⟨?_, ?_, ?_, ?_, ?_⟩
  · intro s hs
    rw [hlaid _ hs, layOver, mergeValue_scalar]
  · intro lower upper hlower hupper
    rw [hlaid _ hupper, hlower, layOver_tree_tree]
    exact ⟨rfl, keys_merge lower (h.of_valueAt hupper).1⟩
  · intro upper hupper hlower
    rw [hlaid _ hupper, layOver, mergeValue_tree_of_not_tree upper hlower]
  · intro _ hleaf
    exact valueAt_merge_of_belowLeaf base h hleaf
  · intro hnone hleaf
    rw [valueAt_merge_of_not_belowLeaf base h hleaf, hnone]
    rfl

/-- A tree with a leaf and branches for another one to be laid over. -/
def lowerConfig : Tree :=
  [(.quoted "log", .scalar .null),
    (.quoted "db", .tree
      [(.quoted "port", .scalar (.integer 1)),
        (.quoted "host", .tree [(.quoted "name", .scalar (.bool true))]),
        (.literal "port", .scalar (.integer 2))])]

/-- A tree that turns the leaf into a branch and a branch into a leaf. One of its keys differs from
a key of the lower tree in its mark alone. -/
def upperConfig : Tree :=
  [(.quoted "db", .tree
      [(.quoted "user", .scalar .null), (.quoted "host", .scalar (.integer 7)),
        (.literal "port", .tree [])]),
    (.quoted "log", .tree [(.quoted "level", .scalar (.integer 3))])]

/-- All five cases arise when the one tree is laid over the other. -/
theorem valueAt_merge_upperConfig :
    WellKeyed upperConfig ∧
      valueAt [.quoted "db", .quoted "host"] (merge lowerConfig upperConfig)
        = some (.scalar (.integer 7)) ∧
      (valueAt [.quoted "db"] (merge lowerConfig upperConfig)).map (Entries.keys ∘ branchOf ∘ some)
        = some [.quoted "port", .quoted "host", .literal "port", .quoted "user"] ∧
      valueAt [.quoted "log"] (merge lowerConfig upperConfig)
        = some (.tree [(.quoted "level", .scalar (.integer 3))]) ∧
      valueAt [.quoted "db", .quoted "host", .quoted "name"] (merge lowerConfig upperConfig)
        = none ∧
      valueAt [.quoted "db", .quoted "port"] (merge lowerConfig upperConfig)
        = some (.scalar (.integer 1)) := by
  have hkeys : WellKeyed upperConfig := by decide
  have hmerge := valueAt_merge lowerConfig hkeys
  obtain ⟨hleaf, -⟩ := hmerge [.quoted "db", .quoted "host"]
  obtain ⟨-, hboth, -⟩ := hmerge [.quoted "db"]
  obtain ⟨-, -, hupper, -⟩ := hmerge [.quoted "log"]
  obtain ⟨-, -, -, hnothing, -⟩ := hmerge [.quoted "db", .quoted "host", .quoted "name"]
  obtain ⟨-, -, -, -, hlower⟩ := hmerge [.quoted "db", .quoted "port"]
  have hbelow : BelowLeaf [.quoted "db", .quoted "host", .quoted "name"]
      (some (.tree upperConfig)) :=
    ⟨[.quoted "db", .quoted "host"], .integer 7, by decide, by decide, rfl⟩
  have hfree : ¬ BelowLeaf [.quoted "db", .quoted "port"] (some (.tree upperConfig)) := by
    rw [belowLeaf_cons_tree]
    exact fun hb ↦ not_belowLeaf_nil _ ((belowLeaf_cons_tree _ _ _).mp hb)
  obtain ⟨hdb, horder⟩ := hboth _ _ rfl rfl
  refine ⟨hkeys, hleaf _ rfl, ?_, hupper _ rfl nofun, hnothing rfl hbelow, hlower rfl hfree⟩
  rw [hdb]
  exact congrArg some horder

end LayeredConfig.Tree
