import LayeredConfig.Value.Basic

/-!
# Dot paths

Flattening addresses every leaf by one key, the bare texts on its path joined by dots; unflattening
splits every key at every dot. A flat key is literal exactly when the root-level key above the leaf
is. Trees without leaves leave no trace in the flat form.
-/

namespace LayeredConfig.Tree

/-- The character between the segments of a dot path. -/
def separator : Char := '.'

/-- Extends a path by a key. Nothing is written between an empty path and its first key. -/
def joinPath (path key : String) : String :=
  if path = "" then key else String.ofList (path.toList ++ separator :: key.toList)

mutual

/-- Inserts the leaves of what lies at `path` into a flat tree. -/
def flattenAt (path : String) (isLiteral : Bool) (flat : Tree) : Value → Tree
  | .scalar s => Entries.insert (.tagged path isLiteral) (.scalar s) flat
  | .tree branch => flattenBelow path isLiteral flat branch

/-- Inserts the leaves of a branch at `path` into a flat tree, depth first. -/
def flattenBelow (path : String) (isLiteral : Bool) (flat : Tree) : List (Text × Value) → Tree
  | [] => flat
  | (key, value) :: rest =>
    flattenBelow path isLiteral (flattenAt (joinPath path key.bare) isLiteral flat value) rest

end

/-- Addresses every leaf by one dot path, in depth-first order. -/
def flatten (tree : Tree) : Tree :=
  tree.foldl (fun flat (key, value) ↦ flattenAt key.bare key.isLiteral flat value) []

/-- The segments of a path: the texts between its dots, at least one. -/
def splitChars : List Char → List (List Char)
  | [] => [[]]
  | c :: rest =>
    if c = separator then [] :: splitChars rest
    else match splitChars rest with
      | [] => [[c]]
      | segment :: more => (c :: segment) :: more

/-- The segments of a path as strings. -/
def splitPath (path : String) : List String := (splitChars path.toList).map String.ofList

/-- The entries below a key, none when it holds a leaf or nothing. -/
def branchOf : Option Value → Tree
  | some (.tree branch) => branch
  | _ => []

/-- Stores a value at a path, replacing a leaf that stands in the way of a branch. -/
def insertPath (head : Text) (rest : List String) (value : Value) (tree : Tree) : Tree :=
  match rest with
  | [] => Entries.insert head value tree
  | next :: tail =>
    Entries.alter head
      (fun old ↦ .tree (insertPath (.quoted next) tail value (branchOf old))) tree

/-- Stores a value at the path that a flat key spells; its first segment keeps the key's mark. -/
def insertFlat (key : Text) (value : Value) (tree : Tree) : Tree :=
  match splitPath key.bare with
  | [] => tree
  | first :: rest => insertPath (.tagged first key.isLiteral) rest value tree

/-- Rebuilds nesting by splitting every key at its dots. A later entry wins over an earlier one. -/
def unflatten (flat : Tree) : Tree :=
  flat.foldl (fun tree (key, value) ↦ insertFlat key value tree) []

/-- Every path has a first segment. -/
theorem splitChars_ne_nil (path : List Char) : splitChars path ≠ [] := by
  cases path with
  | nil => simp [splitChars]
  | cons c rest =>
    simp only [splitChars]
    split
    · simp
    · split <;> simp

end LayeredConfig.Tree
