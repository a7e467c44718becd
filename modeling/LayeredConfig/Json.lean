import LayeredConfig.Binary64.Layout
import LayeredConfig.Characters.Hex

/-!
# JSON data and its two written forms

`compact` writes no blanks and `pretty` indents by two spaces. Characters beyond ASCII are kept, a
number that is not finite is written as `null`, and members keep their order, equal names included.
-/

namespace LayeredConfig

/-- JSON data with the kinds of number that a configuration distinguishes. -/
inductive Json where
  | null
  | bool (b : Bool)
  | integer (n : Int64)
  | unsigned (n : UInt64)
  | float (x : Binary64)
  | string (s : String)
  | array (items : List Json)
  | object (members : List (String × Json))
deriving Repr, Inhabited

namespace Json

/-- A character inside a JSON string. -/
def escapeChar (c : Char) : List Char :=
  if c = '"' then ['\\', '"']
  else if c = '\\' then ['\\', '\\']
  else if c = '\x08' then ['\\', 'b']
  else if c = '\t' then ['\\', 't']
  else if c = '\n' then ['\\', 'n']
  else if c = '\x0c' then ['\\', 'f']
  else if c = '\r' then ['\\', 'r']
  else if c.toNat < 32 then
    ['\\', 'u', '0', '0',
      Characters.hexDigit (c.toNat / 16), Characters.hexDigit (c.toNat % 16)]
  else [c]

/-- A JSON string with its quotes. -/
def quote (s : String) : List Char := '"' :: s.toList.flatMap escapeChar ++ ['"']

private def leaf : Json → List Char
  | bool true => "true".toList
  | bool false => "false".toList
  | integer n => (toString n.toInt).toList
  | unsigned n => Nat.toDigits 10 n.toNat
  | float x => if x.isFinite then Binary64.Layout.json.write x else "null".toList
  | string s => quote s
  | _ => "null".toList

mutual

/-- The compact form as characters. -/
def compactChars : Json → List Char
  | array items => '[' :: compactItems items ++ [']']
  | object members => '\x7b' :: compactMembers members ++ ['\x7d']
  | other => leaf other

private def compactItems : List Json → List Char
  | [] => []
  | [item] => compactChars item
  | item :: rest => compactChars item ++ ',' :: compactItems rest

private def compactMembers : List (String × Json) → List Char
  | [] => []
  | [(name, value)] => quote name ++ ':' :: compactChars value
  | (name, value) :: rest => quote name ++ ':' :: compactChars value ++ ',' :: compactMembers rest

end

private def newLine (depth : Nat) : List Char := '\n' :: List.replicate (2 * depth) ' '

mutual

/-- The indented form as characters, for a value that stands at `depth`. -/
def prettyChars (depth : Nat) : Json → List Char
  | array [] => ['[', ']']
  | array (item :: rest) =>
    '[' :: prettyItems (depth + 1) (item :: rest) ++ newLine depth ++ [']']
  | object [] => ['\x7b', '\x7d']
  | object (member :: rest) =>
    '\x7b' :: prettyMembers (depth + 1) (member :: rest) ++ newLine depth ++ ['\x7d']
  | other => leaf other

private def prettyItems (depth : Nat) : List Json → List Char
  | [] => []
  | [item] => newLine depth ++ prettyChars depth item
  | item :: rest => newLine depth ++ prettyChars depth item ++ ',' :: prettyItems depth rest

private def prettyMembers (depth : Nat) : List (String × Json) → List Char
  | [] => []
  | [(name, value)] => newLine depth ++ quote name ++ ':' :: ' ' :: prettyChars depth value
  | (name, value) :: rest =>
    newLine depth ++ quote name ++ ':' :: ' ' :: prettyChars depth value
      ++ ',' :: prettyMembers depth rest

end

/-- The text without blanks. -/
def compact (json : Json) : String := String.ofList json.compactChars

/-- The text indented by two spaces. -/
def pretty (json : Json) : String := String.ofList (json.prettyChars 0)

end Json

end LayeredConfig
