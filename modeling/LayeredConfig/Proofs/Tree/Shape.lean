import LayeredConfig.Proofs.Entries.Alteration
import LayeredConfig.Value.Basic

/-!
# The shape of a tree

Induction over a tree goes by its first entry: none, a leaf, or a branch with what lies below it.
`Nested` states a property of all trees below a tree and `Everywhere` includes the tree itself, so a
tree is well-keyed when no key occurs twice anywhere in it.
-/

namespace LayeredConfig.Tree

/-- Induction over the first entry of a tree, the trees below it included. -/
theorem induct {P : Tree → Prop} (nil : P [])
    (leaf : ∀ (key : Text) (s : Scalar) (rest : Tree), P rest → P ((key, .scalar s) :: rest))
    (branch : ∀ (key : Text) (below rest : Tree), P below → P rest →
      P ((key, .tree below) :: rest)) : ∀ tree : Tree, P tree
  | [] => nil
  | (key, .scalar s) :: rest => leaf key s rest (induct nil leaf branch rest)
  | (key, .tree below) :: rest =>
    branch key below rest (induct nil leaf branch below) (induct nil leaf branch rest)

/-- Induction over the trees that the keys of a tree hold. -/
theorem induct_branches {P : Tree → Prop}
    (step : ∀ tree, (∀ key below, Entries.find? key tree = some (.tree below) → P below) → P tree)
    (tree : Tree) : P tree := by
  have hbelow : ∀ entry ∈ tree, ∀ below, entry.2 = .tree below → P below := by
    induction tree using induct with
    | nil => simp
    | leaf key s rest ih => exact List.forall_mem_cons.mpr ⟨nofun, ih⟩
    | branch key inside rest ihb ihr =>
      refine List.forall_mem_cons.mpr ⟨fun below h ↦ ?_, ihr⟩
      rw [← Value.tree.inj h]
      exact step inside fun _ below' hfind ↦ ihb _ (Entries.mem_of_find? hfind) below' rfl
  exact step tree fun _ below hfind ↦ hbelow _ (Entries.mem_of_find? hfind) below rfl

/-! ### Properties of nested trees -/

mutual

/-- Whether a value is a leaf or a tree with a property that all trees inside it have. -/
def ValueNested (P : Tree → Prop) : Value → Prop
  | .scalar _ => True
  | .tree entries => P entries ∧ Nested P entries

/-- Whether every tree below a tree has a property, at any depth. -/
def Nested (P : Tree → Prop) : List (Text × Value) → Prop
  | [] => True
  | (_, value) :: rest => ValueNested P value ∧ Nested P rest

end

mutual

/-- A computable property of a tree can be computed for a value. -/
def decideValueNested (P : Tree → Prop) [DecidablePred P] :
    (value : Value) → Decidable (ValueNested P value)
  | .scalar _ => isTrue trivial
  | .tree entries =>
    @instDecidableAnd _ _ (inferInstanceAs (Decidable (P entries))) (decideNested P entries)

/-- A computable property of a tree can be computed for all nested trees. -/
def decideNested (P : Tree → Prop) [DecidablePred P] :
    (tree : List (Text × Value)) → Decidable (Nested P tree)
  | [] => isTrue trivial
  | (_, value) :: rest =>
    @instDecidableAnd _ _ (decideValueNested P value) (decideNested P rest)

end

instance (P : Tree → Prop) [DecidablePred P] : DecidablePred (Nested P) := decideNested P

/-- Whether a tree and every tree below it have a property. -/
def Everywhere (P : Tree → Prop) (tree : Tree) : Prop := P tree ∧ Nested P tree

instance (P : Tree → Prop) [DecidablePred P] : DecidablePred (Everywhere P) :=
  fun tree ↦ inferInstanceAs (Decidable (P tree ∧ Nested P tree))

/-- A leaf adds no nested tree. -/
@[simp] theorem nested_leaf (P : Tree → Prop) (key : Text) (s : Scalar) (rest : Tree) :
    Nested P ((key, .scalar s) :: rest) ↔ Nested P rest := by
  simp [Nested, ValueNested]

/-- A branch adds the tree at it and the trees below that. -/
@[simp] theorem nested_branch (P : Tree → Prop) (key : Text) (below rest : Tree) :
    Nested P ((key, .tree below) :: rest) ↔ Everywhere P below ∧ Nested P rest := by
  simp [Nested, ValueNested, Everywhere]

/-- What holds of every nested tree holds in the values of the entries. -/
theorem valueNested_of_mem {P : Tree → Prop} {tree : Tree} (h : Nested P tree)
    {entry : Text × Value} (he : entry ∈ tree) : ValueNested P entry.2 := by
  induction tree with
  | nil => simp at he
  | cons first rest ih =>
    rcases List.mem_cons.mp he with rfl | he
    · exact h.1
    · exact ih h.2 he

/-- Altering a key keeps a property of nested trees when the changed value has it. -/
theorem nested_alter {P : Tree → Prop} {key : Text} {change : Option Value → Value} {tree : Tree}
    (h : Nested P tree) (hchange : ValueNested P (change (Entries.find? key tree))) :
    Nested P (Entries.alter key change tree) := by
  induction tree with
  | nil => exact ⟨hchange, trivial⟩
  | cons entry rest ih =>
    rcases entry with ⟨k, value⟩
    by_cases hk : k = key
    · simp only [Entries.find?, hk, ite_true] at hchange
      simp only [Entries.alter, hk, ite_true]
      exact ⟨hchange, h.2⟩
    · simp only [Entries.find?, hk, ite_false] at hchange
      simp only [Entries.alter, hk, ite_false]
      exact ⟨h.1, ih h.2 hchange⟩

/-! ### Distinct keys -/

/-- No key occurs twice in a tree or in a tree below it. -/
def WellKeyed : Tree → Prop := Everywhere Entries.Distinct

instance : DecidablePred WellKeyed := inferInstanceAs (DecidablePred (Everywhere _))

/-- The first entry of a well-keyed tree has a key of its own. -/
theorem wellKeyed_rest {entry : Text × Value} {rest : Tree} (h : WellKeyed (entry :: rest)) :
    entry.1 ∉ Entries.keys rest ∧ WellKeyed rest := by
  obtain ⟨hd, hn⟩ := h
  simp only [Entries.Distinct, Entries.keys, List.map_cons, List.nodup_cons] at hd
  exact ⟨hd.1, hd.2, hn.2⟩

/-- The first leaf of a well-keyed tree has a key of its own. -/
theorem wellKeyed_leaf (key : Text) (s : Scalar) (rest : Tree) :
    WellKeyed ((key, .scalar s) :: rest) ↔ key ∉ Entries.keys rest ∧ WellKeyed rest := by
  simp [WellKeyed, Everywhere, Entries.Distinct, Entries.keys, and_assoc]

/-- The first branch of a well-keyed tree has a key of its own and is well-keyed. -/
theorem wellKeyed_branch (key : Text) (below rest : Tree) :
    WellKeyed ((key, .tree below) :: rest)
      ↔ key ∉ Entries.keys rest ∧ WellKeyed below ∧ WellKeyed rest := by
  simp only [WellKeyed, Everywhere, Entries.Distinct, Entries.keys, List.map_cons,
    List.nodup_cons, nested_branch]
  constructor
  · rintro ⟨⟨hk, hd⟩, hb, hr⟩
    exact ⟨hk, hb, hd, hr⟩
  · rintro ⟨hk, hb, hd, hr⟩
    exact ⟨⟨hk, hd⟩, hb, hr⟩

/-- What the keys of a well-keyed tree hold is well-keyed. -/
theorem WellKeyed.of_find? {tree below : Tree} (h : WellKeyed tree) {key : Text}
    (hfind : Entries.find? key tree = some (.tree below)) : WellKeyed below :=
  valueNested_of_mem h.2 (Entries.mem_of_find? hfind)

/-- Giving a key a well-keyed value keeps a tree well-keyed. -/
theorem WellKeyed.alter {tree : Tree} (h : WellKeyed tree) {key : Text}
    {change : Option Value → Value}
    (hvalue : ValueNested Entries.Distinct (change (Entries.find? key tree))) :
    WellKeyed (Entries.alter key change tree) :=
  ⟨Entries.distinct_alter key change h.1, nested_alter h.2 hvalue⟩

/-- A tree without entries is well-keyed. -/
theorem wellKeyed_nil : WellKeyed [] := ⟨List.nodup_nil, trivial⟩

end LayeredConfig.Tree
