/-!
# Cursors in a YAML text

A cursor is the rest of a text with the place where it begins: the number of bytes before it, the
line, and the column in that line, which counts characters. Line breaks are those of YAML 1.1: line
feed, carriage return, both together, next line, line separator and paragraph separator.
-/

namespace LayeredConfig.Yaml

/-- Whether a character ends a line. -/
def isBreak (c : Char) : Bool :=
  c = '\n' || c = '\r' || c = '\u0085' || c = '\u2028' || c = '\u2029'

/-- Whether a character is a space or a tab. -/
def isGap (c : Char) : Bool := c = ' ' || c = '\t'

/-- Whether a character may stand in names of anchors, handles and directives. -/
def isNameChar (c : Char) : Bool := c.isAlphanum || c = '_' || c = '-'

/-- Whether a character may stand in a YAML text at all. -/
def isAllowed (c : Char) : Bool :=
  let n := c.toNat
  n == 0x09 || n == 0x0A || n == 0x0D || (0x20 ≤ n && n ≤ 0x7E) || n == 0x85
    || (0xA0 ≤ n && n ≤ 0xD7FF) || (0xE000 ≤ n && n ≤ 0xFFFD)
    || 0x10000 ≤ n

/-- Whether a character is one of the five that structure flow collections. -/
def isFlowIndicator (c : Char) : Bool :=
  c = ',' || c = '[' || c = ']' || c = '\x7b' || c = '\x7d'

/-- The number of bytes that characters take in UTF-8. -/
def byteLength (text : List Char) : Nat := text.foldr (fun c length ↦ c.utf8Size + length) 0

/-- The rest of a text with its place. -/
structure Cursor where
  rest : List Char
  offset : Nat
  line : Nat
  column : Nat
deriving DecidableEq, Repr

namespace Cursor

/-- The cursor at the start of a text. -/
def start (text : List Char) : Cursor := ⟨text, 0, 0, 0⟩

/-- The character at a distance. -/
def peek? (c : Cursor) (distance : Nat) : Option Char := c.rest[distance]?

/-- Whether the next character is the given one. -/
def isAt (c : Cursor) (expected : Char) : Bool := c.rest.head? = some expected

/-- Whether the character at a distance is a line break or missing. -/
def isBreakOrEnd (c : Cursor) (distance : Nat) : Bool := (c.peek? distance).all isBreak

/-- Whether the character at a distance is blank, a line break or missing. -/
def isBlankOrEnd (c : Cursor) (distance : Nat) : Bool :=
  (c.peek? distance).all fun d ↦ isGap d || isBreak d

/-- Moves over characters of the same line. -/
def advance (c : Cursor) (count : Nat) : Cursor :=
  ⟨c.rest.drop count, c.offset + byteLength (c.rest.take count), c.line, c.column + count⟩

/-- Moves over the characters of a class, none of which may be a line break. -/
def skipWhile (c : Cursor) (p : Char → Bool) : Cursor :=
  c.advance (c.rest.takeWhile p).length

/-- Reads a line break and gives the text it stands for: a line feed, or a separator as it is. -/
def readBreak (c : Cursor) : List Char × Cursor :=
  match c.rest with
  | '\r' :: '\n' :: rest => (['\n'], ⟨rest, c.offset + 2, c.line + 1, 0⟩)
  | d :: rest =>
    if isBreak d then
      (if d = '\u2028' ∨ d = '\u2029' then [d] else ['\n'],
        ⟨rest, c.offset + d.utf8Size, c.line + 1, 0⟩)
    else ([], c)
  | [] => ([], c)

/-- Moves over a byte order mark that begins a line. -/
def skipByteOrderMark (c : Cursor) : Cursor :=
  if c.column == 0 && c.isAt '\ufeff' then c.advance 1 else c

/-- Moves over a comment, up to the end of its line. -/
def skipComment (c : Cursor) : Cursor :=
  if c.isAt '#' then c.skipWhile (fun d ↦ !isBreak d) else c

/-- Whether a document marker made of three of the given character begins here. -/
def isMarker (c : Cursor) (mark : Char) : Bool :=
  c.column == 0 && c.rest.take 3 == [mark, mark, mark] && c.isBlankOrEnd 3

/-- Whether the start or the end of a document is marked here. -/
def isAnyMarker (c : Cursor) : Bool := c.isMarker '-' || c.isMarker '.'

end Cursor

end LayeredConfig.Yaml
