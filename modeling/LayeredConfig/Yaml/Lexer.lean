import LayeredConfig.Yaml.ScalarText
import LayeredConfig.Yaml.TagText

/-!
# From characters to tokens

The lexer keeps a stack of block indentations and, for every open flow collection and the block
around them, at most one pending key: a place where a token stands that may turn out to be a
mapping key when a colon follows on the same line and not too far behind. Only then are the tokens
that open the key put in front of it.
-/

namespace LayeredConfig.Yaml

/-- A token that may turn out to be a key: its number, and where it began. -/
structure PendingKey where
  position : Nat
  required : Bool
  offset : Nat
  line : Nat
  column : Nat
deriving DecidableEq, Repr

/-- How many bytes a key may lie back from the colon that makes it one. -/
def keyReach : Nat := 1024

/-- Whether a pending key lies on an earlier line or too far back. -/
def PendingKey.isStale (key : PendingKey) (c : Cursor) : Bool :=
  key.line < c.line || key.offset + keyReach < c.offset

/-- The state of the lexer. Tokens are held last first; the pending keys innermost first, the last
one belonging to the block context. An indentation of minus one means that no block is open. -/
structure Lexer where
  cursor : Cursor
  indent : Int
  indents : List Int
  keys : List (Option PendingKey)
  keyAllowed : Bool
  tokens : List Token
  count : Nat

namespace Lexer

/-- The state before the first character. -/
def start (text : List Char) : Lexer := ⟨.start text, -1, [], [none], true, [], 0⟩

/-- Whether a flow collection is open. -/
def inFlow (s : Lexer) : Bool := 1 < s.keys.length

/-- Adds a token at the end. -/
def emit (s : Lexer) (token : Token) : Lexer :=
  { s with tokens := token :: s.tokens, count := s.count + 1 }

/-- Adds a token in front of the token with a number. -/
def emitAt (s : Lexer) (position : Nat) (token : Token) : Lexer :=
  { s with tokens := s.tokens.insertIdx (s.count - position) token, count := s.count + 1 }

/-- Moves over an indicator of some length and adds its token. -/
def indicator (s : Lexer) (length : Nat) (token : Token) : Lexer :=
  { s with cursor := s.cursor.advance length }.emit token

/-- Moves over blanks, comments, line breaks and byte order marks that begin a line. A break in a
block makes a key possible. Tabs are blanks where no key is possible. -/
def skipToToken : (fuel : Nat) → Lexer → Lexer
  | 0, s => s
  | fuel + 1, s =>
    let tabs := s.inFlow || !s.keyAllowed
    let c := s.cursor.skipByteOrderMark.skipWhile fun d ↦ d == ' ' || (tabs && d == '\t')
    let c := c.skipComment
    if c.rest.head?.any isBreak then
      skipToToken fuel { s with cursor := c.readBreak.2, keyAllowed := s.keyAllowed || !s.inFlow }
    else { s with cursor := c }

/-- Gives up pending keys that the cursor has left behind; one that is required is a fault. -/
def dropStaleKeys (s : Lexer) : Except Fault Lexer :=
  let stale (key : Option PendingKey) : Bool := key.any (·.isStale s.cursor)
  if s.keys.any fun key ↦ stale key && key.any (·.required) then .error .unfinishedKey
  else .ok { s with keys := s.keys.map fun key ↦ if stale key then none else key }

/-- Gives up the innermost pending key; one that is required is a fault. -/
def dropKey (s : Lexer) : Except Fault Lexer :=
  match s.keys with
  | some key :: rest =>
    if key.required then .error .unfinishedKey else .ok { s with keys := none :: rest }
  | _ => .ok s

/-- Notes that the next token may be a key, where a key is possible. -/
def saveKey (s : Lexer) : Except Fault Lexer :=
  if !s.keyAllowed then .ok s
  else
    let required := !s.inFlow && s.indent == (s.cursor.column : Int)
    let key : PendingKey :=
      ⟨s.count, required, s.cursor.offset, s.cursor.line, s.cursor.column⟩
    s.dropKey.map fun s ↦ { s with keys := some key :: s.keys.drop 1 }

/-- Opens a block at a column that lies deeper than the current one. -/
def openBlock (s : Lexer) (column : Nat) (position : Nat) (token : Token) : Lexer :=
  if !s.inFlow && s.indent < (column : Int) then
    { s with indents := s.indent :: s.indents, indent := column }.emitAt position token
  else s

/-- Closes the blocks deeper than a column: the indentations left and how many were closed. -/
def closeBlocks (column : Int) : (indent : Int) → List Int → Int × List Int × Nat
  | indent, [] => (indent, [], 0)
  | indent, outer :: rest =>
    if column < indent then
      let (indent, indents, closed) := closeBlocks column outer rest
      (indent, indents, closed + 1)
    else (indent, outer :: rest, 0)

/-- Closes every block deeper than a column, unless a flow collection is open. -/
def unroll (s : Lexer) (column : Int) : Lexer :=
  if s.inFlow then s
  else
    let (indent, indents, closed) := closeBlocks column s.indent s.indents
    { s with
      indent, indents
      tokens := List.replicate closed .blockEnd ++ s.tokens
      count := s.count + closed }

/-- A directive or a document marker, which ends every block. -/
def atLineStart (s : Lexer) (token : Cursor → Except Fault (Token × Cursor)) :
    Except Fault Lexer :=
  match (s.unroll (-1)).dropKey with
  | .error e => .error e
  | .ok s => (token s.cursor).map fun (token, cursor) ↦
      { s with cursor, keyAllowed := false }.emit token

/-- The opening bracket of a flow collection. -/
def openFlow (s : Lexer) (token : Token) : Except Fault Lexer :=
  s.saveKey.map fun s ↦
    { s with keys := none :: s.keys, keyAllowed := true }.indicator 1 token

/-- The closing bracket of a flow collection. -/
def closeFlow (s : Lexer) (token : Token) : Except Fault Lexer :=
  s.dropKey.map fun s ↦
    let keys := if s.inFlow then s.keys.drop 1 else s.keys
    { s with keys, keyAllowed := false }.indicator 1 token

/-- A comma between the parts of a flow collection. -/
def flowEntry (s : Lexer) : Except Fault Lexer :=
  s.dropKey.map fun s ↦ { s with keyAllowed := true }.indicator 1 .flowEntry

/-- The dash of a list item. In a flow collection the token is refused later on. -/
def blockEntry (s : Lexer) : Except Fault Lexer :=
  if !s.inFlow && !s.keyAllowed then .error .misplacedIndicator
  else
    (s.openBlock s.cursor.column s.count .blockSequence).dropKey.map fun s ↦
      { s with keyAllowed := true }.indicator 1 .blockEntry

/-- The question mark of an explicit key. -/
def explicitKey (s : Lexer) : Except Fault Lexer :=
  if !s.inFlow && !s.keyAllowed then .error .misplacedIndicator
  else
    (s.openBlock s.cursor.column s.count .blockMapping).dropKey.map fun s ↦
      { s with keyAllowed := !s.inFlow }.indicator 1 .key

/-- The colon before a value: it turns the pending key into a key, or follows an explicit one. -/
def mappingValue (s : Lexer) : Except Fault Lexer :=
  match s.keys with
  | some key :: outer =>
    let s := { s with keys := none :: outer }.emitAt key.position .key
    let s := s.openBlock key.column key.position .blockMapping
    .ok ({ s with keyAllowed := false }.indicator 1 .value)
  | _ =>
    if !s.inFlow && !s.keyAllowed then .error .misplacedIndicator
    else
      let s := s.openBlock s.cursor.column s.count .blockMapping
      .ok ({ s with keyAllowed := !s.inFlow }.indicator 1 .value)

/-- An anchor, an alias, a tag or a flow scalar, which may be a key or open one. -/
def content (s : Lexer) (read : Cursor → Except Fault (Token × Cursor × Bool)) :
    Except Fault Lexer :=
  match s.saveKey with
  | .error e => .error e
  | .ok s => (read s.cursor).map fun (token, cursor, keyAllowed) ↦
      { s with cursor, keyAllowed }.emit token

/-- A block scalar, which is never a key. -/
def blockText (s : Lexer) (literal : Bool) : Except Fault Lexer :=
  match s.dropKey with
  | .error e => .error e
  | .ok s => (blockScalar literal s.indent s.cursor).map fun scalar ↦
      { s with cursor := scalar.after, keyAllowed := true }.emit (.scalar false scalar.text)

private def named (make : List Char → Token) (c : Cursor) : Except Fault (Token × Cursor × Bool) :=
  (anchorName c).map fun (name, c) ↦ (make name, c, false)

private def quoted (single : Bool) (c : Cursor) : Except Fault (Token × Cursor × Bool) :=
  (quotedScalar single c).map fun scalar ↦ (.scalar false scalar.text, scalar.after, false)

-- A plain scalar; behind one that ends at a line break a key is possible again.
private def plain (s : Lexer) (c : Cursor) : Except Fault (Token × Cursor × Bool) :=
  (plainScalar s.inFlow (s.indent + 1).toNat c).map fun scalar ↦
    (.scalar true scalar.text, scalar.after, scalar.broken)

/-- Whether a plain scalar may begin with a character, at the head of the cursor. -/
def startsPlain (inFlow : Bool) (first : Char) (c : Cursor) : Bool :=
  !"-?:,[]\x7b\x7d#&*!|>'\"%@`".toList.contains first && !isGap first && !isBreak first
    || (first == '-' && !(c.peek? 1).any isGap)
    || (!inFlow && (first == '?' || first == ':') && !c.isBlankOrEnd 1)

/-- Reads the token that begins with a character, at the head of the cursor. -/
def readToken (s : Lexer) (first : Char) : Except Fault Lexer :=
  let c := s.cursor
  let flow := s.inFlow
  if c.column == 0 && first == '%' then s.atLineStart directiveToken
  else if c.isMarker '-' then s.atLineStart fun c ↦ .ok (.documentStart, c.advance 3)
  else if c.isMarker '.' then s.atLineStart fun c ↦ .ok (.documentEnd, c.advance 3)
  else if first == '[' then s.openFlow .flowSequence
  else if first == '\x7b' then s.openFlow .flowMapping
  else if first == ']' then s.closeFlow .flowSequenceEnd
  else if first == '\x7d' then s.closeFlow .flowMappingEnd
  else if first == ',' then s.flowEntry
  else if first == '-' && c.isBlankOrEnd 1 then s.blockEntry
  else if first == '?' && (flow || c.isBlankOrEnd 1) then s.explicitKey
  else if first == ':' && (flow || c.isBlankOrEnd 1) then s.mappingValue
  else if first == '*' then s.content (named .alias)
  else if first == '&' then s.content (named .anchor)
  else if first == '!' then
    s.content fun c ↦ (tagToken flow c).map fun (token, c) ↦ (token, c, false)
  else if first == '|' && !flow then s.blockText true
  else if first == '>' && !flow then s.blockText false
  else if first == '\'' then s.content (quoted true)
  else if first == '"' then s.content (quoted false)
  else if startsPlain flow first c then s.content s.plain
  else .error .unexpectedCharacter

/-- Reads tokens to the end of the text. -/
def run : (fuel : Nat) → Lexer → Except Fault (List Token)
  | 0, _ => .error .unexpectedCharacter
  | fuel + 1, s =>
    let s := s.skipToToken s.cursor.rest.length
    match s.dropStaleKeys with
    | .error e => .error e
    | .ok s =>
      let s := s.unroll s.cursor.column
      match s.cursor.rest with
      | [] => (s.unroll (-1)).dropKey.map fun s ↦ s.tokens.reverse
      | first :: _ =>
        match s.readToken first with
        | .error e => .error e
        | .ok s => run fuel s

end Lexer

/-- The tokens of a text. -/
def tokenize (text : List Char) : Except Fault (List Token) :=
  if text.all isAllowed then (Lexer.start text).run (text.length + 1)
  else .error .forbiddenCharacter

end LayeredConfig.Yaml
