import LayeredConfig.Proofs.Tree.Shape

/-!
# The tips of a tree

A tree ends in leaves and in empty branches. Its tips are these, in depth-first order, each with
the keys that lead to it. Every tip has a path of at least one key, and no two tips have the same
path where keys are distinct.
-/

namespace LayeredConfig.Tree

/-- A leaf or an empty branch, with the keys on the way to it. -/
abbrev Tip := List Text × Value

/-- A tip seen from above the key that leads to it. -/
def Tip.below (key : Text) (tip : Tip) : Tip := (key :: tip.1, tip.2)

mutual

/-- The tips of a value; a leaf and an empty tree are their own tips. -/
def valueTips : Value → List Tip
  | .scalar s => [([], .scalar s)]
  | .tree entries => if entries.isEmpty then [([], .tree [])] else tips entries

/-- The tips of a tree, in depth-first order. -/
def tips : List (Text × Value) → List Tip
  | [] => []
  | (key, value) :: rest => (valueTips value).map (Tip.below key) ++ tips rest

end

/-- A tree without entries has no tips. -/
@[simp] theorem tips_nil : tips [] = [] := rfl

/-- A leaf is one tip. -/
@[simp] theorem tips_leaf (key : Text) (s : Scalar) (rest : Tree) :
    tips ((key, .scalar s) :: rest) = ([key], .scalar s) :: tips rest := rfl

/-- An empty branch is one tip. -/
@[simp] theorem tips_empty (key : Text) (rest : Tree) :
    tips ((key, .tree []) :: rest) = ([key], .tree []) :: tips rest := rfl

/-- The tips of a branch come before those of the entries behind it. -/
theorem tips_branch (key : Text) {below : Tree} (rest : Tree) (h : below ≠ []) :
    tips ((key, .tree below) :: rest) = (tips below).map (Tip.below key) ++ tips rest := by
  cases below with
  | nil => exact absurd rfl h
  | cons entry more => rfl

private theorem valueTips_ne_nil : ∀ value : Value, valueTips value ≠ []
  | .scalar _ => by simp [valueTips]
  | .tree [] => by simp [valueTips]
  | .tree ((key, value) :: rest) => by simp [valueTips, tips, valueTips_ne_nil value]

/-- A tree with entries has tips. -/
theorem tips_ne_nil {tree : Tree} (h : tree ≠ []) : tips tree ≠ [] := by
  cases tree with
  | nil => exact absurd rfl h
  | cons entry rest => simp [tips, valueTips_ne_nil]

/-- A tip of a tree is one of a value in it, with the key of that value in front. -/
theorem mem_tips_iff (tip : Tip) (tree : Tree) :
    tip ∈ tips tree ↔
      ∃ entry ∈ tree, ∃ inner ∈ valueTips entry.2, inner.below entry.1 = tip := by
  induction tree with
  | nil => simp
  | cons entry rest ih => simp [tips, ih]

/-- Induction over where a tip stands: it is the first entry, or it lies below the first entry, or
it belongs to the entries behind it. -/
theorem mem_tips_induct {P : (tree : Tree) → (tip : Tip) → tip ∈ tips tree → Prop}
    (leaf : ∀ (key : Text) (s : Scalar) (rest : Tree)
      (h : ([key], .scalar s) ∈ tips ((key, .scalar s) :: rest)),
      P ((key, .scalar s) :: rest) ([key], .scalar s) h)
    (empty : ∀ (key : Text) (rest : Tree)
      (h : ([key], .tree []) ∈ tips ((key, .tree []) :: rest)),
      P ((key, .tree []) :: rest) ([key], .tree []) h)
    (below : ∀ (key : Text) (below rest : Tree) (inner : Tip) (hi : inner ∈ tips below)
      (h : inner.below key ∈ tips ((key, .tree below) :: rest)), P below inner hi →
      P ((key, .tree below) :: rest) (inner.below key) h)
    (behind : ∀ (entry : Text × Value) (rest : Tree) (tip : Tip) (hr : tip ∈ tips rest)
      (h : tip ∈ tips (entry :: rest)), P rest tip hr → P (entry :: rest) tip h)
    {tree : Tree} {tip : Tip} (h : tip ∈ tips tree) : P tree tip h := by
  induction tree using induct generalizing tip with
  | nil => exact absurd h List.not_mem_nil
  | leaf key s rest ih =>
    rcases List.mem_cons.mp h with rfl | hr
    · exact leaf key s rest h
    · exact behind _ rest tip hr h (ih hr)
  | branch key inside rest ihb ihr =>
    by_cases he : inside = []
    · subst he
      rcases List.mem_cons.mp h with rfl | hr
      · exact empty key rest h
      · exact behind _ rest tip hr h (ihr hr)
    · have hm := h
      rw [tips_branch key rest he, List.mem_append, List.mem_map] at hm
      rcases hm with ⟨inner, hi, rfl⟩ | hr
      · exact below key inside rest inner hi h (ihb hi)
      · exact behind _ rest tip hr h (ihr hr)

/-- The path of a tip starts with a key of the tree. -/
theorem exists_head_of_mem_tips {tip : Tip} {tree : Tree} (h : tip ∈ tips tree) :
    ∃ key ∈ Entries.keys tree, ∃ path, tip.1 = key :: path := by
  obtain ⟨entry, he, inner, -, rfl⟩ := (mem_tips_iff tip tree).mp h
  exact ⟨entry.1, List.mem_map_of_mem he, inner.1, rfl⟩

/-- Every tip of a tree is reached over a key. -/
theorem path_ne_nil_of_mem_tips {tip : Tip} {tree : Tree} (h : tip ∈ tips tree) :
    tip.1 ≠ [] := by
  obtain ⟨key, -, path, hp⟩ := exists_head_of_mem_tips h
  simp [hp]

/-- What is made of paths differs between the tips of a branch when it does so between those of the
tree below it. -/
theorem nodup_map_valueTips {β : Type} {f : List Text → β} {below : Tree}
    (h : ((tips below).map fun tip ↦ f tip.1).Nodup) :
    ((valueTips (.tree below)).map fun tip ↦ f tip.1).Nodup := by
  cases below with
  | nil => simp [valueTips]
  | cons entry rest => exact h

/-- What is made of paths differs between all tips when it differs between those of the first entry,
between those behind it, and between paths over the first key and over a later one. -/
theorem nodup_map_tips_cons {β : Type} {f : List Text → β} {key : Text} {value : Value}
    {rest : Tree} (hfirst : ((valueTips value).map fun tip ↦ f (key :: tip.1)).Nodup)
    (hrest : ((tips rest).map fun tip ↦ f tip.1).Nodup)
    (hnew : ∀ other ∈ Entries.keys rest, ∀ path path', f (key :: path) ≠ f (other :: path')) :
    ((tips ((key, value) :: rest)).map fun tip ↦ f tip.1).Nodup := by
  rw [tips, List.map_append, List.map_map, List.nodup_append]
  refine ⟨hfirst, hrest, ?_⟩
  intro made hmade made' hmade'
  obtain ⟨inner, -, rfl⟩ := List.mem_map.mp hmade
  obtain ⟨tip, ht, rfl⟩ := List.mem_map.mp hmade'
  obtain ⟨other, ho, path, hpath⟩ := exists_head_of_mem_tips ht
  rw [hpath]
  exact hnew other ho inner.1 path

/-- Where siblings differ after their keys are mapped, so do the paths of tips. -/
theorem nodup_map_paths_tips {β : Type} (f : Text → β) {tree : Tree}
    (h : Everywhere (fun t ↦ ((Entries.keys t).map f).Nodup) tree) :
    ((tips tree).map fun tip ↦ tip.1.map f).Nodup := by
  induction tree using induct with
  | nil => simp
  | leaf key s rest ih =>
    obtain ⟨hnew, hrest⟩ := List.nodup_cons.mp h.1
    refine nodup_map_tips_cons (by simp [valueTips]) (ih ⟨hrest, h.2.2⟩) ?_
    intro other ho path path' he
    exact hnew ((List.cons.inj he).1 ▸ List.mem_map_of_mem ho)
  | branch key below rest ihb ihr =>
    obtain ⟨hnew, hrest⟩ := List.nodup_cons.mp h.1
    obtain ⟨hb, hn⟩ := (nested_branch _ key below rest).mp h.2
    have hne : ∀ path path' : List β, path ≠ path' → f key :: path ≠ f key :: path' :=
      fun _ _ hne he ↦ hne (List.cons.inj he).2
    have hbelow : ((tips below).map fun tip ↦ (key :: tip.1).map f).Nodup := by
      have hpaths := List.Pairwise.map (f key :: ·) hne (ihb hb)
      rwa [List.map_map] at hpaths
    refine nodup_map_tips_cons (f := List.map f) ?_ (ihr ⟨hrest, hn⟩) ?_
    · exact nodup_map_valueTips (f := fun path ↦ (key :: path).map f) hbelow
    · intro other ho path path' he
      exact hnew ((List.cons.inj he).1 ▸ List.mem_map_of_mem ho)

/-- No two tips of a tree with distinct keys have the same path. -/
theorem nodup_paths_tips {tree : Tree} (h : WellKeyed tree) :
    ((tips tree).map Prod.fst).Nodup := by
  have hid : Everywhere (fun t ↦ ((Entries.keys t).map id).Nodup) tree := by
    simp only [List.map_id]
    exact h
  simpa only [List.map_id] using nodup_map_paths_tips id hid

/-- A tip is a leaf or an empty branch. -/
theorem value_of_mem_tips {tree : Tree} {tip : Tip} (ht : tip ∈ tips tree) :
    (∃ s, tip.2 = .scalar s) ∨ tip.2 = .tree [] := by
  induction ht using mem_tips_induct with
  | leaf key s rest => exact Or.inl ⟨s, rfl⟩
  | empty key rest => exact Or.inr rfl
  | below key below rest inner _ _ ih => exact ih
  | behind entry rest tip _ _ ih => exact ih

/-- Where no nested tree is empty, every tip is a leaf. -/
theorem exists_scalar_of_mem_tips {tip : Tip} {tree : Tree} (h : Nested (· ≠ []) tree)
    (ht : tip ∈ tips tree) : ∃ s, tip.2 = .scalar s := by
  induction ht using mem_tips_induct with
  | leaf key s rest => exact ⟨s, rfl⟩
  | empty key rest => exact absurd rfl ((nested_branch _ key [] rest).mp h).1.1
  | below key below rest inner _ _ ih => exact ih ((nested_branch _ key below rest).mp h).1.2
  | behind entry rest tip _ _ ih => exact ih h.2

/-! ### Leaves -/

/-- The leaves of a tree with the keys on the way to them, in depth-first order: its tips without
the empty branches. -/
def leaves (tree : Tree) : List Tip := (tips tree).filter fun tip ↦ !tip.2.isTree

/-- A tree without entries has no leaves. -/
@[simp] theorem leaves_nil : leaves [] = [] := rfl

/-- A leaf comes before those of the entries behind it. -/
@[simp] theorem leaves_leaf (key : Text) (s : Scalar) (rest : Tree) :
    leaves ((key, .scalar s) :: rest) = ([key], .scalar s) :: leaves rest := rfl

/-- The leaves of a branch, which may have none, come before those of the entries behind it. -/
@[simp] theorem leaves_branch (key : Text) (below rest : Tree) :
    leaves ((key, .tree below) :: rest) = (leaves below).map (Tip.below key) ++ leaves rest := by
  by_cases he : below = []
  · subst he
    rfl
  · rw [leaves, tips_branch key rest he, List.filter_append, List.filter_map]
    rfl

/-- The tips that are no empty branches are the leaves. -/
theorem filter_tips (tree : Tree) :
    ((tips tree).filter fun tip ↦ tip.2 ≠ .tree []) = leaves tree := by
  refine List.filter_congr fun tip ht ↦ ?_
  rcases value_of_mem_tips ht with ⟨s, hs⟩ | hbranch
  · rw [hs]
    rfl
  · rw [hbranch]
    rfl

/-- Where no nested tree is empty, every tip is a leaf. -/
theorem leaves_eq_tips {tree : Tree} (h : Nested (· ≠ []) tree) : leaves tree = tips tree := by
  refine List.filter_eq_self.mpr fun tip ht ↦ ?_
  obtain ⟨s, hs⟩ := exists_scalar_of_mem_tips h ht
  rw [hs]
  rfl

/-- Every leaf of a tree is listed. -/
theorem length_leaves (tree : Tree) : (leaves tree).length = leafCount tree := by
  induction tree using induct with
  | nil => rfl
  | leaf key s rest ih =>
    simp only [leaves_leaf, List.length_cons, leafCount, valueLeafCount, ih]
    omega
  | branch key below rest ihb ihr =>
    rw [leaves_branch, List.length_append, List.length_map, ihb, ihr]
    rfl

/-- Where no nested tree is empty, there are as many tips as leaves. -/
theorem length_tips {tree : Tree} (h : Nested (· ≠ []) tree) :
    (tips tree).length = leafCount tree := by
  rw [← leaves_eq_tips h, length_leaves]

/-- A leaf is one of the tips. -/
theorem mem_tips_of_mem_leaves {tree : Tree} {leaf : Tip} (h : leaf ∈ leaves tree) :
    leaf ∈ tips tree := (List.mem_filter.mp h).1

/-- The path of a leaf starts with a key of the tree. -/
theorem exists_head_of_mem_leaves {tree : Tree} {leaf : Tip} (h : leaf ∈ leaves tree) :
    ∃ key ∈ Entries.keys tree, ∃ path, leaf.1 = key :: path :=
  exists_head_of_mem_tips (mem_tips_of_mem_leaves h)

/-- A leaf holds a scalar. -/
theorem exists_scalar_of_mem_leaves {tree : Tree} {leaf : Tip} (h : leaf ∈ leaves tree) :
    ∃ s, leaf.2 = .scalar s := by
  rcases value_of_mem_tips (mem_tips_of_mem_leaves h) with hs | hbranch
  · exact hs
  · have hleaf := (List.mem_filter.mp h).2
    rw [hbranch] at hleaf
    exact absurd hleaf nofun

/-- A property of all keys of a tree holds of all keys on the way to its tips. -/
theorem forall_mem_path_of_everywhere {Q : Text → Prop} {tree : Tree}
    (h : Everywhere (fun t ↦ ∀ key ∈ Entries.keys t, Q key) tree) {tip : Tip}
    (ht : tip ∈ tips tree) : ∀ key ∈ tip.1, Q key := by
  induction ht using mem_tips_induct with
  | leaf key s rest => simpa using h.1 key List.mem_cons_self
  | empty key rest => simpa using h.1 key List.mem_cons_self
  | below key below rest inner _ _ ih =>
    have hkey : Q key := h.1 key List.mem_cons_self
    exact List.forall_mem_cons.mpr ⟨hkey, ih ((nested_branch _ key below rest).mp h.2).1⟩
  | behind entry rest tip _ _ ih =>
    exact ih ⟨fun key hk ↦ h.1 key (List.mem_cons_of_mem _ hk), h.2.2⟩

/-- A property of all values in a tree and in the trees below it holds of its tips. -/
theorem value_of_everywhere {Q : Value → Prop} {tree : Tree}
    (h : Everywhere (fun t ↦ ∀ entry ∈ t, Q entry.2) tree) {tip : Tip}
    (ht : tip ∈ tips tree) : Q tip.2 := by
  induction ht using mem_tips_induct with
  | leaf key s rest => exact h.1 _ List.mem_cons_self
  | empty key rest => exact h.1 _ List.mem_cons_self
  | below key below rest inner _ _ ih => exact ih ((nested_branch _ key below rest).mp h.2).1
  | behind entry rest tip _ _ ih =>
    exact ih ⟨fun entry he ↦ h.1 entry (List.mem_cons_of_mem _ he), h.2.2⟩

/-- A property of all keys below a value holds of all keys on the way to its tips. -/
theorem forall_mem_path_of_valueNested {Q : Text → Prop} {value : Value}
    (h : ValueNested (fun t ↦ ∀ key ∈ Entries.keys t, Q key) value) {tip : Tip}
    (ht : tip ∈ valueTips value) : ∀ key ∈ tip.1, Q key := by
  match value with
  | .scalar s =>
    rcases List.mem_singleton.mp ht with rfl
    exact fun key hk ↦ absurd hk List.not_mem_nil
  | .tree [] =>
    rcases List.mem_singleton.mp ht with rfl
    exact fun key hk ↦ absurd hk List.not_mem_nil
  | .tree (entry :: rest) => exact forall_mem_path_of_everywhere h ht

end LayeredConfig.Tree
