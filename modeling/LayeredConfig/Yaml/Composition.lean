import LayeredConfig.Yaml.Node

/-!
# From tokens to nodes

Tokens are read by recursive descent. The reader holds the tokens that are left and the anchor
names in use with their numbers. Every reader takes fuel that decreases with each nested reader;
four units for each token are more than any reading needs.
-/

namespace LayeredConfig.Yaml

/-- What is left to read, and the anchors in use. -/
structure Composer where
  tokens : List Token
  anchors : List (List Char × Nat)

/-- The handles of tags and what they stand for. -/
abbrev Handles := List (List Char × List UInt8)

/-- The handles that need no directive. -/
def standardHandles : Handles :=
  [(['!'], asciiBytes ['!']), (['!', '!'], asciiBytes "tag:yaml.org,2002:".toList)]

/-- A reader of nodes. -/
abbrev Compose := StateT Composer (Except Fault)

namespace Compose

/-- The next token, left where it is. -/
def peek : Compose (Option Token) := return (← get).tokens.head?

/-- Moves over the next token. -/
def skip : Compose Unit := modify fun s ↦ { s with tokens := s.tokens.drop 1 }

/-- Whether the next token is the given one. -/
def isAt (token : Token) : Compose Bool := return (← peek) == some token

/-- Whether the next token is one of the given ones. -/
def isAtAny (tokens : List Token) : Compose Bool := return (← peek).any tokens.contains

/-- Notes an anchor name and gives its number. -/
def define (name : List Char) : Compose Nat := do
  let s ← get
  let number := s.anchors.length
  set { s with anchors := (name, number) :: s.anchors.filter (·.1 != name) }
  return number

/-- The number of an anchor name. -/
def lookup (name : List Char) : Compose Nat := do
  match (← get).anchors.find? (·.1 == name) with
  | some (_, number) => return number
  | none => throw .undefinedAlias

/-- The complete text of a tag. -/
def completeTag (handles : Handles) (handle : List Char) (suffix : List UInt8) :
    Compose (List UInt8) :=
  if handle.isEmpty then return suffix
  else match handles.find? (·.1 == handle) with
    | some (_, lead) => return lead ++ suffix
    | none => throw .badTag

/-- Reads the anchor and the tag of a node, in either order, each at most once. -/
def properties (handles : Handles) : Compose (Option (List Char) × Option (List UInt8)) := do
  match ← peek with
  | some (.anchor name) =>
    skip
    match ← peek with
    | some (.tag handle suffix) =>
      skip
      return (some name, some (← completeTag handles handle suffix))
    | _ => return (some name, none)
  | some (.tag handle suffix) =>
    skip
    match ← peek with
    | some (.anchor name) =>
      skip
      return (some name, some (← completeTag handles handle suffix))
    | _ => return (none, some (← completeTag handles handle suffix))
  | _ => return (none, none)

mutual

/-- Reads a node. In a block it may be a block collection; as a value or key of a block mapping it
may also be a list whose dashes stand at the mapping's own column. -/
def node (handles : Handles) (block indentless : Bool) : (fuel : Nat) → Compose Node
  | 0 => throw .unexpectedToken
  | fuel + 1 => do
    match ← peek with
    | some (.alias name) => skip; return .alias (← lookup name)
    | _ =>
      let (name, tag) ← properties handles
      let anchor ← match name with
        | some name => some <$> define name
        | none => pure none
      match ← peek with
      | some .blockEntry =>
        if indentless then return .sequence anchor tag (← indentlessItems handles fuel)
        else emptyNode anchor tag
      | some (.scalar plain text) =>
        skip; return .scalar anchor tag plain (String.ofList text)
      | some .flowSequence => skip; return .sequence anchor tag (← flowItems handles true fuel)
      | some .flowMapping => skip; return .mapping anchor tag (← flowPairs handles true fuel)
      | some .blockSequence =>
        if block then skip; return .sequence anchor tag (← blockItems handles fuel)
        else emptyNode anchor tag
      | some .blockMapping =>
        if block then skip; return .mapping anchor tag (← blockPairs handles fuel)
        else emptyNode anchor tag
      | _ => emptyNode anchor tag

private def emptyNode (anchor : Option Nat) (tag : Option (List UInt8)) : Compose Node :=
  if anchor.isNone && tag.isNone then throw .unexpectedToken
  else return .scalar anchor tag true ""

/-- Reads a node unless one of the given tokens, or nothing at all, comes next. -/
def nodeBefore (handles : Handles) (block : Bool) (ends : List Token) :
    (fuel : Nat) → Compose Node
  | 0 => throw .unexpectedToken
  | fuel + 1 => do
    if ← isAtAny ends then return .missing else node handles block false fuel

/-- Reads a key or value of a block mapping unless the mapping goes on or ends. -/
def mappingPart (handles : Handles) : (fuel : Nat) → Compose Node
  | 0 => throw .unexpectedToken
  | fuel + 1 => do
    if ← isAtAny [.key, .value, .blockEnd] then return .missing
    else node handles true true fuel

/-- Reads the items of a block sequence and its end. -/
def blockItems (handles : Handles) : (fuel : Nat) → Compose (List Node)
  | 0 => throw .unexpectedToken
  | fuel + 1 => do
    match ← peek with
    | some .blockEntry =>
      skip
      let item ← nodeBefore handles true [.blockEntry, .blockEnd] fuel
      return item :: (← blockItems handles fuel)
    | some .blockEnd => skip; return []
    | _ => throw .unexpectedToken

/-- Reads the items of a sequence that has no indentation of its own. -/
def indentlessItems (handles : Handles) : (fuel : Nat) → Compose (List Node)
  | 0 => throw .unexpectedToken
  | fuel + 1 => do
    if ← isAt .blockEntry then
      skip
      let item ← nodeBefore handles true [.blockEntry, .key, .value, .blockEnd] fuel
      return item :: (← indentlessItems handles fuel)
    else return []

/-- Reads the pairs of a block mapping and its end. -/
def blockPairs (handles : Handles) : (fuel : Nat) → Compose (List (Node × Node))
  | 0 => throw .unexpectedToken
  | fuel + 1 => do
    match ← peek with
    | some .key =>
      skip
      let key ← mappingPart handles fuel
      let value ← blockValue handles fuel
      return (key, value) :: (← blockPairs handles fuel)
    | some .blockEnd => skip; return []
    | _ => throw .unexpectedToken

/-- Reads the value of a pair in a block mapping; without a colon there is none. -/
def blockValue (handles : Handles) : (fuel : Nat) → Compose Node
  | 0 => throw .unexpectedToken
  | fuel + 1 => do
    if ← isAt .value then skip; mappingPart handles fuel else return .missing

/-- Reads the items of a flow sequence and its end. An item that begins with a key is a mapping of
one pair. -/
def flowItems (handles : Handles) (first : Bool) : (fuel : Nat) → Compose (List Node)
  | 0 => throw .unexpectedToken
  | fuel + 1 => do
    if ← isAt .flowSequenceEnd then skip; return []
    else
      if !first then
        if ← isAt .flowEntry then skip else throw .unexpectedToken
      match ← peek with
      | some .flowSequenceEnd => skip; return []
      | some .key =>
        skip
        let pair ← singlePair handles fuel
        return .mapping none none [pair] :: (← flowItems handles false fuel)
      | _ =>
        let item ← node handles false false fuel
        return item :: (← flowItems handles false fuel)

/-- Reads the one pair of an item of a flow sequence. A key that is missing swallows the token that
stands in its place. -/
def singlePair (handles : Handles) : (fuel : Nat) → Compose (Node × Node)
  | 0 => throw .unexpectedToken
  | fuel + 1 => do
    let key ←
      if ← isAtAny [.value, .flowEntry, .flowSequenceEnd] then
        skip
        pure .missing
      else node handles false false fuel
    if ← isAt .value then
      skip
      return (key, ← nodeBefore handles false [.flowEntry, .flowSequenceEnd] fuel)
    else return (key, .missing)

/-- Reads the pairs of a flow mapping and its end. A part without a colon is a key without value. -/
def flowPairs (handles : Handles) (first : Bool) : (fuel : Nat) → Compose (List (Node × Node))
  | 0 => throw .unexpectedToken
  | fuel + 1 => do
    if ← isAt .flowMappingEnd then skip; return []
    else
      if !first then
        if ← isAt .flowEntry then skip else throw .unexpectedToken
      match ← peek with
      | some .flowMappingEnd => skip; return []
      | some .key =>
        skip
        let key ← nodeBefore handles false [.value, .flowEntry, .flowMappingEnd] fuel
        let value ← flowValue handles fuel
        return (key, value) :: (← flowPairs handles false fuel)
      | _ =>
        let key ← node handles false false fuel
        return (key, .missing) :: (← flowPairs handles false fuel)

/-- Reads the value of a pair in a flow mapping; without a colon there is none. -/
def flowValue (handles : Handles) : (fuel : Nat) → Compose Node
  | 0 => throw .unexpectedToken
  | fuel + 1 => do
    if ← isAt .value then
      skip
      nodeBefore handles false [.flowEntry, .flowMappingEnd] fuel
    else return .missing

end

/-- Reads directives, each handle and the version at most once, over the standard handles. -/
def directives (version : Bool) (handles : Handles) : (fuel : Nat) → Compose Handles
  | 0 => throw .badDirective
  | fuel + 1 => do
    match ← peek with
    | some (.version major minor) =>
      if version || major != 1 || (minor != 1 && minor != 2) then throw .badDirective
      else skip; directives true handles fuel
    | some (.tagDirective handle lead) =>
      if handles.any (·.1 == handle) then throw .badDirective
      else skip; directives version ((handle, lead) :: handles) fuel
    | _ => return handles ++ standardHandles

private def endsDocument : Option Token → Bool
  | none => true
  | some .documentStart => true
  | some .documentEnd => true
  | some (.version ..) => true
  | some (.tagDirective ..) => true
  | _ => false

private def opensDocument : Token → Bool
  | .documentStart => true
  | .version .. => true
  | .tagDirective .. => true
  | _ => false

/-- Reads the only document of a text; `none` when the text has no document at all. -/
def document (fuel : Nat) : Compose (Option Node) := do
  let root ← match ← peek with
    | none => return none
    | some token =>
      if opensDocument token then
        let handles ← directives false [] fuel
        if ← isAt .documentStart then skip else throw .badDirective
        if endsDocument (← peek) then pure .missing else node handles true false fuel
      else node standardHandles true false fuel
  if (← get).tokens.all (· == .documentEnd) then return some root else throw .severalDocuments

end Compose

/-- The document that tokens form; `none` when there are no tokens. -/
def Node.ofTokens (tokens : List Token) : Except Fault (Option Node) :=
  (Compose.document (4 * tokens.length + 4)).run' ⟨tokens, []⟩

end LayeredConfig.Yaml
