import LayeredConfig.Code.Segment
import LayeredConfig.Code.Structured
import LayeredConfig.Tree.Flatten

/-!
# Flat code

Every leaf is assigned into the segment under one key, its dot path without the stem of the
segment.
-/

namespace LayeredConfig.Code

/-- The target of a flat key in a segment. -/
def flatTarget (segment : Segment) (key : Text) : String :=
  segment.expression ++ "[" ++ ofText singleQuoted (segment.strip key) ++ "]"

/-- The assignment of one entry of a flat tree. -/
def flatAssignment (segment : Segment) (key : Text) :
    Value → Except GenerationError Assignment
  | .scalar s => (ofScalar (flatTarget segment key) s).map (⟨flatTarget segment key, ·⟩)
  | .tree _ => .ok ⟨flatTarget segment key, emptyArray⟩

/-- The assignments of a flat tree, in order. -/
def flatAssignments (segment : Segment) : Tree → Except GenerationError (List Assignment)
  | [] => .ok []
  | (key, value) :: rest =>
    match flatAssignment segment key value with
    | .error e => .error e
    | .ok first => (flatAssignments segment rest).map (first :: ·)

/-- Flat code for a tree. -/
def flat (segment : Segment) (tree : Tree) : Except GenerationError String :=
  (flatAssignments segment tree.flatten).map renderLines

end LayeredConfig.Code
