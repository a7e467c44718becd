import LayeredConfig.Value.Basic

/-!
# Deep merge

A later document is laid over an earlier one. Where both hold trees they are merged key by key; in
every other case the later value replaces the earlier. Keys keep the position they had in the
earlier tree, and new keys follow in the order of the later one.
-/

namespace LayeredConfig.Tree

mutual

/-- Lays a value over what a key held before, if anything. -/
def mergeValue (base : Option Value) : Value → Value
  | .scalar s => .scalar s
  | .tree overlay =>
    match base with
    | some (.tree entries) => .tree (merge entries overlay)
    | _ => .tree overlay

/-- Lays the entries of `overlay` over `base`, one after the other. -/
def merge (base : Tree) : (overlay : List (Text × Value)) → Tree
  | [] => base
  | (key, value) :: rest => merge (Entries.alter key (fun old ↦ mergeValue old value) base) rest

end

/-- Merges documents in order over a first one. -/
def mergeAll (base : Tree) (overlays : List Tree) : Tree := overlays.foldl merge base

/-- An empty overlay changes nothing. -/
theorem merge_nil (base : Tree) : merge base [] = base := by rw [merge]

/-- The overlay is applied entry by entry. -/
theorem merge_cons (base : Tree) (key : Text) (value : Value) (rest : Tree) :
    merge base ((key, value) :: rest)
      = merge (Entries.alter key (fun old ↦ mergeValue old value) base) rest := by rw [merge]

/-- A leaf replaces whatever was there. -/
theorem mergeValue_scalar (base : Option Value) (s : Scalar) :
    mergeValue base (.scalar s) = .scalar s := by rw [mergeValue]

/-- Two trees are merged key by key. -/
theorem mergeValue_tree_tree (base overlay : Tree) :
    mergeValue (some (.tree base)) (.tree overlay) = .tree (merge base overlay) := by
  rw [mergeValue]

/-- A tree that meets no tree is taken over as it is. -/
theorem mergeValue_tree_of_not_tree {base : Option Value} (overlay : Tree)
    (h : ∀ entries, base ≠ some (.tree entries)) :
    mergeValue base (.tree overlay) = .tree overlay := by
  rw [mergeValue]
  exact h

end LayeredConfig.Tree

namespace LayeredConfig.Value

/-- Lays one value over another. -/
def merge (base overlay : Value) : Value := Tree.mergeValue (some base) overlay

/-- Merges values in order over a first one. -/
def mergeAll (base : Value) (overlays : List Value) : Value := overlays.foldl merge base

end LayeredConfig.Value
