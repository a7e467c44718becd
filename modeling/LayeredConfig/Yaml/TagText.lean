import LayeredConfig.Characters.Hex
import LayeredConfig.Yaml.Cursor
import LayeredConfig.Yaml.Fault
import LayeredConfig.Yaml.Token

/-!
# The text of anchors, tags and directives

Tags may hold escaped bytes, each a percent sign and two hexadecimal digits; such bytes must form
sequences with the lead and continuation marks of UTF-8. A tag ends at its first zero byte.
-/

namespace LayeredConfig.Yaml

/-- The characters of a tag besides letters, digits, the underscore and the hyphen. -/
def isTagMark (verbatim : Bool) (c : Char) : Bool :=
  ";/?:@&=+$.!~*'()%".toList.contains c || (verbatim && [',', '[', ']'].contains c)

/-- The escaped byte at the head of a text. -/
def escapedByte? : List Char → Option Nat
  | '%' :: a :: b :: _ => do return 16 * (← Characters.hexValue? a) + (← Characters.hexValue? b)
  | _ => none

/-- The number of bytes in the sequence that a lead byte opens. -/
def sequenceLength? (lead : Nat) : Option Nat :=
  if lead < 0x80 then some 1
  else if 0xC0 ≤ lead ∧ lead < 0xE0 then some 2
  else if 0xE0 ≤ lead ∧ lead < 0xF0 then some 3
  else if 0xF0 ≤ lead ∧ lead < 0xF8 then some 4
  else none

/-- Reads escaped continuation bytes. -/
def continuationBytes : (count : Nat) → Cursor → Except Fault (List UInt8 × Cursor)
  | 0, c => .ok ([], c)
  | count + 1, c =>
    match escapedByte? c.rest with
    | none => .error .badTag
    | some byte =>
      if byte / 0x40 = 2 then
        (continuationBytes count (c.advance 3)).map fun (bytes, c) ↦ (UInt8.ofNat byte :: bytes, c)
      else .error .badTag

/-- Reads one escaped sequence of bytes. -/
def escapedSequence (c : Cursor) : Except Fault (List UInt8 × Cursor) :=
  match escapedByte? c.rest with
  | none => .error .badTag
  | some byte =>
    match sequenceLength? byte with
    | none => .error .badTag
    | some length =>
      (continuationBytes (length - 1) (c.advance 3)).map fun (bytes, c) ↦
        (UInt8.ofNat byte :: bytes, c)

/-- The bytes of ASCII characters. -/
def asciiBytes (text : List Char) : List UInt8 := text.map fun c ↦ UInt8.ofNat c.toNat

/-- Reads the characters and escaped bytes of a tag. -/
def tagBytes (verbatim : Bool) : (fuel : Nat) → Cursor → Except Fault (List UInt8 × Cursor)
  | 0, c => .ok ([], c)
  | fuel + 1, c =>
    match c.rest with
    | [] => .ok ([], c)
    | d :: _ =>
      if d = '%' then
        match escapedSequence c with
        | .error e => .error e
        | .ok (bytes, c) =>
          (tagBytes verbatim fuel c).map fun (more, c) ↦ (bytes ++ more, c)
      else if isNameChar d || isTagMark verbatim d then
        (tagBytes verbatim fuel (c.advance 1)).map fun (more, c) ↦ (asciiBytes [d] ++ more, c)
      else .ok ([], c)

/-- Reads a tag text, which may not be empty unless a handle begins it. -/
def tagText (verbatim mayBeEmpty : Bool) (c : Cursor) : Except Fault (List UInt8 × Cursor) :=
  match tagBytes verbatim c.rest.length c with
  | .error e => .error e
  | .ok (bytes, after) =>
    if after.offset = c.offset && !mayBeEmpty then .error .badTag
    else .ok (bytes.takeWhile (· != 0), after)

/-- Reads an exclamation mark, name characters and a closing exclamation mark if there is one. -/
def handleText (c : Cursor) : Except Fault (List Char × Cursor) :=
  if !c.isAt '!' then .error .badTag
  else
    let name := (c.rest.drop 1).takeWhile isNameChar
    let after := c.advance (name.length + 1)
    if after.isAt '!' then .ok ('!' :: name ++ ['!'], after.advance 1)
    else .ok ('!' :: name, after)

/-- Whether a text read as a handle is one: more than one mark, the last an exclamation mark. -/
def isNamedHandle (handle : List Char) : Bool :=
  2 ≤ handle.length && handle.getLast? = some '!'

-- Reads the handle and the suffix of a tag; a verbatim tag has no handle.
private def tagParts (c : Cursor) : Except Fault (List Char × List UInt8 × Cursor) :=
  if c.peek? 1 = some '<' then
    match tagText true false (c.advance 2) with
    | .error e => .error e
    | .ok (suffix, c) => if c.isAt '>' then .ok ([], suffix, c.advance 1) else .error .badTag
  else
    match handleText c with
    | .error e => .error e
    | .ok (handle, c) =>
      if isNamedHandle handle then
        (tagText false false c).map fun (suffix, c) ↦ (handle, suffix, c)
      else
        (tagText false true c).map fun (rest, c) ↦
          let suffix := asciiBytes (handle.drop 1) ++ rest
          if suffix.isEmpty then ([], asciiBytes ['!'], c) else (['!'], suffix, c)

/-- Reads a tag. Behind it there must be a blank, the end, or in a flow collection a comma. -/
def tagToken (inFlow : Bool) (c : Cursor) : Except Fault (Token × Cursor) :=
  match tagParts c with
  | .error e => .error e
  | .ok (handle, suffix, c) =>
    if (inFlow && c.isAt ',') || c.isBlankOrEnd 0 then .ok (.tag handle suffix, c)
    else .error .badTag

/-- Reads the name of an anchor or alias, whose indicator is next. -/
def anchorName (c : Cursor) : Except Fault (List Char × Cursor) :=
  let name := (c.rest.drop 1).takeWhile isNameChar
  let after := c.advance (name.length + 1)
  let ends := after.isBlankOrEnd 0 || after.rest.head?.any "?:,]\x7d%@`".toList.contains
  if name.isEmpty || !ends then .error .badAnchor else .ok (name, after)

private def versionNumber (c : Cursor) : Except Fault (Nat × Cursor) :=
  let digits := c.rest.takeWhile Char.isDigit
  if digits.isEmpty || 9 < digits.length then .error .badDirective
  else
    .ok (digits.foldl (fun n d ↦ 10 * n + (d.toNat - '0'.toNat)) 0, c.advance digits.length)

private def versionToken (c : Cursor) : Except Fault (Token × Cursor) :=
  match versionNumber (c.skipWhile isGap) with
  | .error e => .error e
  | .ok (major, c) =>
    if !c.isAt '.' then .error .badDirective
    else (versionNumber (c.advance 1)).map fun (minor, c) ↦ (.version major minor, c)

private def tagDirectiveToken (c : Cursor) : Except Fault (Token × Cursor) :=
  match handleText (c.skipWhile isGap) with
  | .error e => .error e
  | .ok (handle, c) =>
    if !(handle = ['!'] || isNamedHandle handle) || !c.rest.head?.any isGap then
      .error .badDirective
    else
      match tagText true false (c.skipWhile isGap) with
      | .error e => .error e
      | .ok (lead, c) =>
        if c.isBlankOrEnd 0 then .ok (.tagDirective handle lead, c) else .error .badDirective

/-- Reads a directive, whose percent sign is next, and the rest of its line. -/
def directiveToken (c : Cursor) : Except Fault (Token × Cursor) :=
  let name := (c.rest.drop 1).takeWhile isNameChar
  let after := c.advance (name.length + 1)
  if !after.isBlankOrEnd 0 then .error .badDirective
  else
    let token :=
      if name = "YAML".toList then versionToken after
      else if name = "TAG".toList then tagDirectiveToken after
      else .error .badDirective
    match token with
    | .error e => .error e
    | .ok (token, c) =>
      let c := (c.skipWhile isGap).skipComment
      if c.isBreakOrEnd 0 then .ok (token, c.readBreak.2) else .error .badDirective

end LayeredConfig.Yaml
