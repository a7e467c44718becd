import LayeredConfig.Proofs.Tree.Place

/-!
# Looking up tips

Where keys are distinct, the path of a tip leads to its value and the leaves that paths lead to are
tips. The paths of two tips are the same or apart.
-/

namespace LayeredConfig.Tree

/-- A path over the key of the first entry goes on below its value. -/
theorem get_first (key : Text) (path : List Text) (value : Value) (rest : Tree) :
    get (key :: path) (some (.tree ((key, value) :: rest))) = get path (some value) := by
  simp [get, Entries.find?]

/-- A path over another key goes on in the rest of the tree. -/
theorem get_rest {key other : Text} (path : List Text) (value : Value) (rest : Tree)
    (h : key ≠ other) :
    get (other :: path) (some (.tree ((key, value) :: rest)))
      = get (other :: path) (some (.tree rest)) := by
  simp [get, Entries.find?, h]

private theorem get_rest_of_mem_tips {key : Text} (value : Value) {rest : Tree}
    (h : key ∉ Entries.keys rest) {tip : Tip} (ht : tip ∈ tips rest) :
    get tip.1 (some (.tree ((key, value) :: rest))) = get tip.1 (some (.tree rest)) := by
  obtain ⟨head, hhead, path, hp⟩ := exists_head_of_mem_tips ht
  rw [hp]
  apply get_rest
  rintro rfl
  exact h hhead

/-- The path of a tip leads to its value. -/
theorem get_of_mem_tips {tree : Tree} (h : WellKeyed tree) {tip : Tip} (ht : tip ∈ tips tree) :
    get tip.1 (some (.tree tree)) = some tip.2 := by
  induction ht using mem_tips_induct with
  | leaf key s rest => exact get_first key [] _ rest
  | empty key rest => exact get_first key [] _ rest
  | below key below rest inner _ _ ih =>
    obtain ⟨-, hb, -⟩ := (wellKeyed_branch key below rest).mp h
    exact (get_first key inner.1 _ rest).trans (ih hb)
  | behind entry rest tip hr _ ih =>
    obtain ⟨hk, hrest⟩ := wellKeyed_rest h
    rw [get_rest_of_mem_tips _ hk hr, ih hrest]

/-- A leaf that a path leads to is a tip. -/
theorem mem_tips_of_get {tree : Tree} {path : List Text} {s : Scalar}
    (h : get path (some (.tree tree)) = some (.scalar s)) : (path, .scalar s) ∈ tips tree := by
  induction tree using induct generalizing path with
  | nil =>
    cases path with
    | nil => simp [get] at h
    | cons head path => simp [get_cons_empty] at h
  | leaf key s' rest ih =>
    cases path with
    | nil => simp [get] at h
    | cons head path =>
      by_cases hk : key = head
      · subst hk
        rw [get_first] at h
        cases path with
        | nil =>
          rw [tips_leaf, ← Option.some.inj h]
          exact List.mem_cons_self
        | cons next path => simp [get_cons_scalar] at h
      · rw [get_rest _ _ _ hk] at h
        exact List.mem_cons_of_mem _ (ih h)
  | branch key below rest ihb ihr =>
    cases path with
    | nil => simp [get] at h
    | cons head path =>
      by_cases hk : key = head
      · subst hk
        rw [get_first] at h
        have ht := ihb h
        have hne : below ≠ [] := by
          rintro rfl
          simp at ht
        rw [tips_branch key rest hne]
        exact List.mem_append_left _ (List.mem_map.mpr ⟨_, ht, rfl⟩)
      · rw [get_rest _ _ _ hk] at h
        exact List.mem_append_right _ (ihr h)

private theorem get_below_tip {tree : Tree} {tip : Tip} (ht : tip ∈ tips tree) {path : List Text}
    (hpath : path ≠ []) : get path (some tip.2) = none := by
  cases path with
  | nil => exact absurd rfl hpath
  | cons key path =>
    rcases value_of_mem_tips ht with ⟨s, hs⟩ | he
    · rw [hs, get_cons_scalar]
    · rw [he, get_cons_empty]

/-- The path of a tip is no proper prefix of the path of another one. -/
theorem eq_of_prefix_path {tree : Tree} (h : WellKeyed tree) {tip other : Tip}
    (ht : tip ∈ tips tree) (ho : other ∈ tips tree) (hp : tip.1 <+: other.1) :
    tip.1 = other.1 := by
  obtain ⟨more, hmore⟩ := hp
  by_cases hne : more = []
  · rw [← hmore, hne, List.append_nil]
  · have hget := get_of_mem_tips h ho
    rw [← hmore, get_append, get_of_mem_tips h ht, get_below_tip ht hne] at hget
    exact absurd hget (by simp)

/-- The paths of two tips are the same or apart. -/
theorem apart_of_mem_tips {tree : Tree} (h : WellKeyed tree) {tip other : Tip}
    (ht : tip ∈ tips tree) (ho : other ∈ tips tree) (hne : tip.1 ≠ other.1) :
    Apart tip.1 other.1 :=
  ⟨fun hp ↦ hne (eq_of_prefix_path h ht ho hp),
    fun hp ↦ hne (eq_of_prefix_path h ho ht hp).symm⟩

end LayeredConfig.Tree
