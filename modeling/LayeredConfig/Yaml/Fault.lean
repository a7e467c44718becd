/-!
# Faults of YAML texts

Every way in which a text fails to be one YAML document with a usable value.
-/

namespace LayeredConfig.Yaml

/-- Why a text has no value. -/
inductive Fault where
  /-- A character that no YAML text may hold. -/
  | forbiddenCharacter
  /-- A character that starts no token where it stands. -/
  | unexpectedCharacter
  /-- A line that has to be a mapping key has no colon. -/
  | unfinishedKey
  /-- A list dash, a question mark or a colon where none may stand. -/
  | misplacedIndicator
  /-- An unknown, malformed, repeated or unsupported directive. -/
  | badDirective
  /-- An anchor or alias without a name, or with other characters in it. -/
  | badAnchor
  /-- A malformed tag, or one with an unknown handle. -/
  | badTag
  /-- A malformed header of a block scalar. -/
  | badBlockHeader
  /-- A tab where only spaces indent. -/
  | tabIndentation
  /-- A quoted scalar that is not closed before the end or the next document. -/
  | unclosedQuote
  /-- An escape that does not exist or stands for no character. -/
  | badEscape
  /-- A colon directly before a flow indicator, inside a flow collection. -/
  | unexpectedColon
  /-- Tokens that do not form a node. -/
  | unexpectedToken
  /-- An alias of an anchor that was not defined before it. -/
  | undefinedAlias
  /-- More than one document. -/
  | severalDocuments
  /-- Collections nested too deeply. -/
  | nestingTooDeep
  /-- Aliases followed too often. -/
  | tooManyAliases
  /-- A key that occurs twice in a mapping. -/
  | duplicateKey
  /-- A scalar that its tag does not admit. -/
  | badTaggedScalar
  /-- An integer beyond sixty-four bits that still fits one hundred and twenty-eight. -/
  | integerOutOfRange
  /-- A merge key whose value is neither a mapping nor a list of mappings. -/
  | badMergeKey
deriving DecidableEq, Repr

namespace Fault

/-- The wording of a fault. -/
def message : Fault → String
  | forbiddenCharacter => "control characters are not allowed"
  | unexpectedCharacter => "found character that cannot start any token"
  | unfinishedKey => "could not find expected ':'"
  | misplacedIndicator => "block indicator is not allowed in this context"
  | badDirective => "found an invalid directive"
  | badAnchor => "did not find an anchor name"
  | badTag => "found an invalid tag"
  | badBlockHeader => "found an invalid block scalar header"
  | tabIndentation => "found a tab character that violates indentation"
  | unclosedQuote => "quoted scalar is not closed"
  | badEscape => "found an invalid escape"
  | unexpectedColon => "found unexpected ':'"
  | unexpectedToken => "did not find expected node content"
  | undefinedAlias => "unknown anchor"
  | severalDocuments => "more than one document"
  | nestingTooDeep => "recursion limit exceeded"
  | tooManyAliases => "repetition limit exceeded"
  | duplicateKey => "duplicate entry in mapping"
  | badTaggedScalar => "scalar does not match its tag"
  | integerOutOfRange => "integer out of range"
  | badMergeKey => "expected a mapping or list of mappings for merging"

end Fault

end LayeredConfig.Yaml
