import LayeredConfig.Yaml.Expansion
import LayeredConfig.Yaml.MergeKey

/-!
# Reading a YAML text

A text holds at most one document. Its value is read first and its merge keys are applied then.
-/

namespace LayeredConfig.Yaml

/-- The value of a text before merge keys are applied; a text without a document is null. -/
def load (text : String) : Except Fault Value :=
  match tokenize text.toList with
  | .error e => .error e
  | .ok tokens =>
    match Node.ofTokens tokens with
    | .error e => .error e
    | .ok none => .ok .null
    | .ok (some root) => root.value

/-- The value of a text with its merge keys applied. -/
def read (text : String) : Except Fault Value :=
  match load text with
  | .error e => .error e
  | .ok value => applyMerge value

end LayeredConfig.Yaml
