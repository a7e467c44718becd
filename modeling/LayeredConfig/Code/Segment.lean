import LayeredConfig.Characters.Blank
import LayeredConfig.Code.Assignment

/-!
# Segments

Flat code assigns into a segment, an expression that is emitted verbatim. The stem of a segment is
its last access key (`app` for `$cfg['app']`), or its name without leading dollar signs (`config`
for `$config`). A key that starts with the stem and a dot is assigned without them.
-/

namespace LayeredConfig.Code

/-- An expression to assign into, with the stem that is stripped from keys. -/
structure Segment where
  expression : String
  stem : String
deriving DecidableEq, Repr

namespace Segment

/-- Whether a character quotes an access key. -/
def isQuote (c : Char) : Bool := c = '\'' || c = '"'

/-- The part of a text behind its last opening bracket, if it has one. -/
def afterLastBracket? (text : List Char) : Option (List Char) :=
  if text.contains '[' then some (text.reverse.takeWhile (· != '[')).reverse else none

/-- The access key between the last bracket and a closing bracket at the end, if there is one. -/
def accessKey? (expression : List Char) : Option (List Char) :=
  match expression.reverse with
  | ']' :: inner => afterLastBracket? inner.reverse
  | _ => none

/-- The stem of an expression. -/
def stemOf (expression : List Char) : List Char :=
  match accessKey? expression with
  | some key => Characters.trimWhile isQuote (Characters.trim key)
  | none => expression.dropWhile (· == '$')

/-- Reads a segment. Blanks around the expression are dropped, and it must not be blank. -/
def parse (text : String) : Except GenerationError Segment :=
  match Characters.trim text.toList with
  | [] => .error .segmentRequired
  | c :: rest => .ok ⟨String.ofList (c :: rest), String.ofList (stemOf (c :: rest))⟩

/-- What follows the stem and a dot in a key, when that is not empty. -/
def afterStem? (segment : Segment) (bare : String) : Option String :=
  match Characters.dropPrefix? (segment.stem.toList ++ ['.']) bare.toList with
  | some (c :: rest) => some (String.ofList (c :: rest))
  | _ => none

/-- Drops a leading stem and dot from a key, keeping its mark. -/
def strip (segment : Segment) (key : Text) : Text :=
  match segment.afterStem? key.bare with
  | some rest => .tagged rest key.isLiteral
  | none => key

end Segment

end LayeredConfig.Code
