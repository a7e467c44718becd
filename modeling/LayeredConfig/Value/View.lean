import LayeredConfig.Json
import LayeredConfig.Value.Basic

/-!
# The written view of a configuration

A configuration is written as JSON data in which every literal text carries the sigil again. Trees
become objects, in order.
-/

namespace LayeredConfig

/-- The JSON data of a leaf. -/
def Scalar.toJson (sigil : Char) : Scalar → Json
  | .null => .null
  | .bool b => .bool b
  | .integer n => .integer n
  | .unsigned n => .unsigned n
  | .float x => .float x
  | .text t => .string (t.toRaw sigil)

mutual

/-- The JSON data of a value. -/
def Value.toJson (sigil : Char) : Value → Json
  | .scalar s => s.toJson sigil
  | .tree entries => .object (Tree.toMembers sigil entries)

/-- The members of a tree's object, in order. -/
def Tree.toMembers (sigil : Char) : List (Text × Value) → List (String × Json)
  | [] => []
  | (key, value) :: rest => (key.toRaw sigil, value.toJson sigil) :: Tree.toMembers sigil rest

end

/-- The JSON object of a tree. -/
def Tree.toJson (sigil : Char) (tree : Tree) : Json := .object (Tree.toMembers sigil tree)

end LayeredConfig
