import LayeredConfig.Value.Basic
import LayeredConfig.Yaml.Value

/-!
# From YAML values to configuration values

Sequences become trees whose keys are the item numbers, tags are dropped, and the keys of mappings
become texts; a key that is a sequence or mapping under its tags has no text. Two keys of one
mapping that become the same text are one key, at the place of the first and with the value of the
last.
-/

namespace LayeredConfig.Document

/-- The only fault of a conversion: a mapping key that is no scalar. -/
inductive ConversionFault where
  | keyIsCollection
deriving DecidableEq, Repr

/-- The scalar of a number. -/
def ofNumber : Yaml.Number → Scalar
  | .unsigned n => .ofUnsigned n
  | .negative n => .integer n
  | .float x => .float x

/-- The text of a mapping key. -/
def convertKey (sigil : Char) : Yaml.Value → Except ConversionFault Text
  | .string s => .ok (.ofRaw sigil s)
  | .number n => .ok (.quoted n.text)
  | .bool b => .ok (.quoted (if b then "true" else "false"))
  | .null => .ok (.quoted "")
  | .tagged _ value => convertKey sigil value
  | .sequence _ => .error .keyIsCollection
  | .mapping _ => .error .keyIsCollection

mutual

/-- The configuration value of a YAML value. -/
def convert (sigil : Char) : Yaml.Value → Except ConversionFault Value
  | .null => .ok (.scalar .null)
  | .bool b => .ok (.scalar (.bool b))
  | .number n => .ok (.scalar (ofNumber n))
  | .string s => .ok (.scalar (.text (.ofRaw sigil s)))
  | .sequence items => (convertItems sigil [] 0 items).map .tree
  | .mapping pairs => (convertPairs sigil [] pairs).map .tree
  | .tagged _ value => convert sigil value

/-- Adds the items of a sequence to a tree, numbered from `index`. -/
def convertItems (sigil : Char) (tree : Tree) (index : Nat) :
    List Yaml.Value → Except ConversionFault Tree
  | [] => .ok tree
  | item :: rest =>
    match convert sigil item with
    | .error e => .error e
    | .ok value =>
      convertItems sigil (Entries.insert (.quoted (toString index)) value tree) (index + 1) rest

/-- Adds the pairs of a mapping to a tree. A key is converted before its value. -/
def convertPairs (sigil : Char) (tree : Tree) :
    List (Yaml.Value × Yaml.Value) → Except ConversionFault Tree
  | [] => .ok tree
  | (key, item) :: rest =>
    match convertKey sigil key with
    | .error e => .error e
    | .ok key =>
      match convert sigil item with
      | .error e => .error e
      | .ok value => convertPairs sigil (Entries.insert key value tree) rest

end

end LayeredConfig.Document
