/-!
# YAML tokens

A text is first cut into tokens. Indentation becomes explicit: a block collection opens with a
start token and closes with `blockEnd`. Tags are byte sequences, because they may be written with
escaped bytes.
-/

namespace LayeredConfig.Yaml

/-- A token of a YAML text. -/
inductive Token where
  | version (major minor : Nat)
  | tagDirective (handle : List Char) (lead : List UInt8)
  | documentStart
  | documentEnd
  | blockSequence
  | blockMapping
  | blockEnd
  | flowSequence
  | flowSequenceEnd
  | flowMapping
  | flowMappingEnd
  | blockEntry
  | flowEntry
  | key
  | value
  | alias (name : List Char)
  | anchor (name : List Char)
  | tag (handle : List Char) (suffix : List UInt8)
  /-- A scalar; `plain` when it was written without quotes and not as a block. -/
  | scalar (plain : Bool) (text : List Char)
deriving DecidableEq, Repr

end LayeredConfig.Yaml
