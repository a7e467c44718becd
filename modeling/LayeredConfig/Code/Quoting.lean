import LayeredConfig.Text

/-!
# Quoted string literals

The generated code has two kinds of string literal. A single-quoted literal escapes the backslash
and the single quote; a double-quoted one escapes the backslash, the double quote and the dollar
sign, which would start an interpolation.
-/

namespace LayeredConfig.Code

/-- Puts a backslash before every character of a class. -/
def escape (special : Char → Bool) (text : List Char) : List Char :=
  text.flatMap fun c ↦ if special c then ['\\', c] else [c]

/-- The characters that a single-quoted literal escapes. -/
def isSingleSpecial (c : Char) : Bool := c = '\\' || c = '\''

/-- The characters that a double-quoted literal escapes. -/
def isDoubleSpecial (c : Char) : Bool := c = '\\' || c = '"' || c = '$'

/-- A single-quoted literal. -/
def singleQuoted (s : String) : String :=
  String.ofList ('\'' :: escape isSingleSpecial s.toList ++ ['\''])

/-- A double-quoted literal, in which nothing is interpolated. -/
def doubleQuoted (s : String) : String :=
  String.ofList ('"' :: escape isDoubleSpecial s.toList ++ ['"'])

/-- The code of a text: a literal one verbatim, a quoted one as a string literal. -/
def ofText (quote : String → String) : Text → String
  | .literal code => code
  | .quoted s => quote s

end LayeredConfig.Code
