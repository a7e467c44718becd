import LayeredConfig.Yaml.Value

/-!
# Merge keys

A mapping with the key `<<` takes over the pairs of the mapping stored there, or of each mapping in
the list stored there, unless it has the key itself. The merge key goes away and the last pair
takes its place; the pairs taken over follow at the end. They are taken over as they are: a merge
key among them stays. Every value that is left is then treated in the same way; the keys are not.
-/

namespace LayeredConfig.Yaml

/-- The string that merges. -/
def mergeKey : String := "<<"

/-- Whether a value is the merge key. -/
def isMergeKey : Value → Bool
  | .string s => s == mergeKey
  | _ => false

/-- Adds a pair at the end unless the key is there. -/
def addMissing {α : Type} (pairs : List (Value × α)) (pair : Value × α) : List (Value × α) :=
  if pairs.any fun (key, _) ↦ pair.1.sameKey key then pairs else pairs ++ [pair]

/-- Removes the merge key; the last pair takes its place. -/
def removeMergeKey {α : Type} (pairs : List (Value × α)) : List (Value × α) :=
  match pairs.span fun (key, _) ↦ !isMergeKey key with
  | (before, _ :: after) =>
    match after.getLast? with
    | some last => before ++ last :: after.dropLast
    | none => before
  | (before, []) => before

/-- Puts the outcomes of the values of pairs together. -/
def settlePairs : List (Value × Except Fault Value) → Except Fault (List (Value × Value))
  | [] => .ok []
  | (_, .error e) :: _ => .error e
  | (key, .ok value) :: rest => (settlePairs rest).map ((key, value) :: ·)

mutual

/-- Applies the merge keys of a value at every depth. -/
def applyMerge : Value → Except Fault Value
  | .mapping pairs =>
    match mergedPairs pairs with
    | .error e => .error e
    | .ok taken =>
      let own := removeMergeKey (ownPairs pairs)
      (settlePairs (taken.foldl addMissing own)).map .mapping
  | .sequence items => (applyMergeItems items).map .sequence
  | .tagged tag value => (applyMerge value).map (.tagged tag)
  | other => .ok other

/-- Applies merge keys to the items of a sequence. -/
def applyMergeItems : List Value → Except Fault (List Value)
  | [] => .ok []
  | item :: rest =>
    match applyMerge item with
    | .error e => .error e
    | .ok item => (applyMergeItems rest).map (item :: ·)

/-- The outcome of each value of a mapping whose merge key is about to be removed, so that the value
of that key is of no account. -/
def ownPairs : List (Value × Value) → List (Value × Except Fault Value)
  | [] => []
  | (key, value) :: rest =>
    (key, if isMergeKey key then .ok .null else applyMerge value) :: ownPairs rest

/-- The outcome of each value of a mapping. A fault counts only if its pair is kept. -/
def appliedPairs : List (Value × Value) → List (Value × Except Fault Value)
  | [] => []
  | (key, value) :: rest => (key, applyMerge value) :: appliedPairs rest

/-- The pairs that a mapping takes over through its merge key, in order. -/
def mergedPairs : List (Value × Value) → Except Fault (List (Value × Except Fault Value))
  | [] => .ok []
  | (key, value) :: rest => if isMergeKey key then sourcePairs value else mergedPairs rest

/-- The pairs of the value of a merge key: a mapping, or a list of mappings. -/
def sourcePairs : Value → Except Fault (List (Value × Except Fault Value))
  | .mapping pairs => .ok (appliedPairs pairs)
  | .sequence items => itemPairs items
  | _ => .error .badMergeKey

/-- The pairs of the mappings in a list. -/
def itemPairs : List Value → Except Fault (List (Value × Except Fault Value))
  | [] => .ok []
  | .mapping pairs :: rest => (itemPairs rest).map (appliedPairs pairs ++ ·)
  | _ :: _ => .error .badMergeKey

end

end LayeredConfig.Yaml
