import LayeredConfig.Code.Assignment

/-!
# Structured code

Every leaf is assigned to a nested access path that starts at a container, `container["a"]["b"]`.
An empty tree below the root is assigned as an empty array, so that nothing of the nesting is lost.
-/

namespace LayeredConfig.Code

/-- The container that access paths start from unless settings choose another one. -/
def defaultContainer : String := "$config"

/-- The access path of a key below a path. -/
def accessPath (path : String) (key : Text) : String :=
  path ++ "[" ++ ofText doubleQuoted key ++ "]"

/-- The code of an empty tree. -/
def emptyArray : String := "array()"

mutual

/-- The assignments of a value that stands at an access path. -/
def structuredValue (path : String) : Value → Except GenerationError (List Assignment)
  | .scalar s => (ofScalar path s).map fun code ↦ [⟨path, code⟩]
  | .tree entries =>
    if entries.isEmpty then .ok [⟨path, emptyArray⟩] else structuredEntries path entries

/-- The assignments of the entries below an access path, in order. -/
def structuredEntries (path : String) :
    List (Text × Value) → Except GenerationError (List Assignment)
  | [] => .ok []
  | (key, value) :: rest =>
    match structuredValue (accessPath path key) value with
    | .error e => .error e
    | .ok first =>
      match structuredEntries path rest with
      | .error e => .error e
      | .ok more => .ok (first ++ more)

end

/-- Structured code for a tree. -/
def structured (container : String) (tree : Tree) : Except GenerationError String :=
  (structuredEntries container tree).map renderLines

end LayeredConfig.Code
