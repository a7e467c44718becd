import LayeredConfig.Yaml.Lexer

/-!
# YAML nodes

A document is a tree of nodes, in which an alias is still a reference. An anchor is known by its
number, the count of anchor names in use before it; giving an old name to a new node takes a number
without using up a name, so that two anchors can share one. An alias stands for the last node, in
the order of the text, that has its number.
-/

namespace LayeredConfig.Yaml

/-- A node of a document. Tags are complete: their handles are resolved. -/
inductive Node where
  | alias (anchor : Nat)
  | scalar (anchor : Option Nat) (tag : Option (List UInt8)) (plain : Bool) (text : String)
  | sequence (anchor : Option Nat) (tag : Option (List UInt8)) (items : List Node)
  | mapping (anchor : Option Nat) (tag : Option (List UInt8)) (pairs : List (Node × Node))
deriving Repr, Inhabited

namespace Node

/-- The scalar that stands where a node is missing. -/
def missing : Node := .scalar none none true ""

mutual

/-- The number of marks in a node: one for a scalar or alias, two for the ends of a collection. -/
def size : Node → Nat
  | .alias _ => 1
  | .scalar .. => 1
  | .sequence _ _ items => 2 + sizeItems items
  | .mapping _ _ pairs => 2 + sizePairs pairs

/-- The number of marks in the items of a sequence. -/
def sizeItems : List Node → Nat
  | [] => 0
  | item :: rest => item.size + sizeItems rest

/-- The number of marks in the pairs of a mapping. -/
def sizePairs : List (Node × Node) → Nat
  | [] => 0
  | (key, value) :: rest => key.size + value.size + sizePairs rest

end

mutual

/-- The last node with an anchor number, or `found` when there is none. -/
def target (number : Nat) (found : Option Node) : Node → Option Node
  | .alias _ => found
  | .scalar anchor tag plain text =>
    if anchor = some number then some (.scalar anchor tag plain text) else found
  | .sequence anchor tag items =>
    targetInItems number
      (if anchor = some number then some (.sequence anchor tag items) else found) items
  | .mapping anchor tag pairs =>
    targetInPairs number
      (if anchor = some number then some (.mapping anchor tag pairs) else found) pairs

/-- The last node with an anchor number among the items of a sequence. -/
def targetInItems (number : Nat) (found : Option Node) : List Node → Option Node
  | [] => found
  | item :: rest => targetInItems number (item.target number found) rest

/-- The last node with an anchor number among the pairs of a mapping. -/
def targetInPairs (number : Nat) (found : Option Node) : List (Node × Node) → Option Node
  | [] => found
  | (key, value) :: rest =>
    targetInPairs number (value.target number (key.target number found)) rest

end

end Node

end LayeredConfig.Yaml
