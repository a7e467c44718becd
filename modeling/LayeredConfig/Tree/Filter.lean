import LayeredConfig.Value.Basic

/-!
# Filtering before generation

Ignored keys are dropped at the top level only. Without the main key, generation starts below the
first key that remains. A filter that leaves nothing to generate from fails and says why.
-/

namespace LayeredConfig

/-- Why a configuration is empty. -/
inductive EmptyCause where
  /-- No top-level key is left. -/
  | noKeysRemain
  /-- The first key holds a leaf or an empty tree, so there is nothing below it. -/
  | nothingNested (key : String)
  /-- A caller's own reason. -/
  | stated (reason : String)
deriving DecidableEq, Repr

namespace EmptyCause

/-- The wording of a cause. -/
def message : EmptyCause → String
  | noKeysRemain => "no top-level keys remain after filtering"
  | nothingNested key => "main key '" ++ key ++ "' holds no nested configuration"
  | stated reason => reason

end EmptyCause

namespace Tree

/-- Drops the top-level entries whose bare key is listed. -/
def dropKeys (ignored : List String) (tree : Tree) : Tree :=
  tree.filter fun (key, _) ↦ !ignored.contains key.bare

/-- What lies below the first key of a tree. -/
def belowMainKey : Tree → Except EmptyCause Tree
  | [] => .error .noKeysRemain
  | (_, .tree (entry :: rest)) :: _ => .ok (entry :: rest)
  | (key, _) :: _ => .error (.nothingNested key.bare)

/-- Drops ignored keys and, unless the main key is kept, goes below the first key that remains. -/
def applyFilters (ignored : List String) (keepMainKey : Bool) (tree : Tree) :
    Except EmptyCause Tree :=
  match dropKeys ignored tree with
  | [] => .error .noKeysRemain
  | entry :: rest => if keepMainKey then .ok (entry :: rest) else belowMainKey (entry :: rest)

end Tree

end LayeredConfig
