import LayeredConfig.Yaml.Composition
import LayeredConfig.Yaml.PlainScalar

/-!
# From nodes to values

Aliases are replaced by what they stand for, scalars get their values, and the keys of a mapping
are checked for repetition. At most one hundred and twenty-eight collections may be open at once,
and an alias may be followed at most one hundred times for each mark of the document.
-/

namespace LayeredConfig.Yaml

/-- What a complete tag means for the node that carries it. -/
inductive TagMeaning where
  /-- The value is held under the tag's name. -/
  | named (name : String)
  | standard (tag : StandardTag)
  /-- A scalar is a string; a collection is as without the tag. -/
  | other
deriving DecidableEq, Repr

/-- The tags of the standard kinds. -/
def standardTags : List (List UInt8 × StandardTag) :=
  [("bool", .bool), ("int", .int), ("float", .float), ("null", .null)].map fun (name, tag) ↦
    (asciiBytes ("tag:yaml.org,2002:" ++ name).toList, tag)

/-- The meaning of a tag. Its name leaves out the exclamation mark that begins it, unless that is
all there is; bytes that are no text make no name. -/
def tagMeaning (tag : List UInt8) : TagMeaning :=
  match standardTags.find? (·.1 == tag) with
  | some (_, standard) => .standard standard
  | none =>
    match tag with
    | [] => .other
    | mark :: rest =>
      if mark ≠ 0x21 then .other
      else match String.fromUTF8? (ByteArray.mk (if rest.isEmpty then tag else rest).toArray) with
        | some name => .named name
        | none => .other

/-- Whether a tag begins with an exclamation mark. -/
def isLocalTag (tag : List UInt8) : Bool := tag.head? = some 0x21

/-- The value of a scalar, apart from the name of a local tag. -/
def scalarValue (tag : Option (List UInt8)) (plain : Bool) (text : String) :
    Except Fault Value :=
  match tag.map fun tag ↦ (tagMeaning tag, isLocalTag tag) with
  | some (.standard standard, _) => standard.value text
  | some (_, false) => .ok (.string text)
  | _ => if plain then plainValue text else .ok (.string text)

/-- Holds a value under the name of its tag, if it has one. -/
def underTag (tag : Option (List UInt8)) (value : Value) : Value :=
  match tag.map tagMeaning with
  | some (.named name) => .tagged name value
  | _ => value

/-- How many collections may be open at once. -/
def depthLimit : Nat := 128

/-- An expansion counts the aliases it has followed. -/
abbrev Expand := StateT Nat (Except Fault)

/-- The node that an alias stands for; any other node stands for itself. -/
def Node.followed (root : Node) : Node → Expand Node
  | .alias number => do
    let count ← get
    if 100 * root.size < count + 1 then throw .tooManyAliases
    set (count + 1)
    match root.target number none with
    | some node => return node
    | none => throw .undefinedAlias
  | node => return node

/-- Collects the pairs of a mapping; a repeated key is a fault before its value is looked at. -/
def expandPairs (expand : Node → Expand Value) :
    (done : List (Value × Value)) → List (Node × Node) → Expand (List (Value × Value))
  | done, [] => return done.reverse
  | done, (keyNode, valueNode) :: rest => do
    let key ← expand keyNode
    if done.any fun (k, _) ↦ key.sameKey k then throw .duplicateKey
    let value ← expand valueNode
    expandPairs expand ((key, value) :: done) rest

/-- The value of a node below which `depth` more collections may be open. -/
def Node.expand (root : Node) : (depth : Nat) → Node → Expand Value
  | depth, node => do
    match ← root.followed node, depth with
    | .alias _, _ => throw .undefinedAlias
    | .scalar _ tag plain text, _ => return underTag tag (← scalarValue tag plain text)
    | .sequence .., 0 => throw .nestingTooDeep
    | .mapping .., 0 => throw .nestingTooDeep
    | .sequence _ tag items, depth + 1 =>
      return underTag tag (.sequence (← items.mapM (expand root depth)))
    | .mapping _ tag pairs, depth + 1 =>
      return underTag tag (.mapping (← expandPairs (expand root depth) [] pairs))

/-- The value of a document. -/
def Node.value (root : Node) : Except Fault Value := (root.expand depthLimit root).run' 0

end LayeredConfig.Yaml
