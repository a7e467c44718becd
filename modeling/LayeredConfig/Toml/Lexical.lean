import LayeredConfig.Binary64.Nearest
import LayeredConfig.Characters.Blank
import LayeredConfig.Characters.Hex
import LayeredConfig.Toml.Value

/-!
# The words of TOML

Blanks, comments, keys, strings, numbers and dates. A reader takes the text that is left and gives
what it read together with the rest.
-/

namespace LayeredConfig.Toml

/-- What a reader gives: a value and the text behind it. -/
abbrev Reading (α : Type) := Except Fault (α × List Char)

/-- Whether a character is a space or a tab. -/
def isGap (c : Char) : Bool := c = ' ' || c = '\t'

/-- Whether a character may stand in a comment or string: no control but the tab. -/
def isPrintable (c : Char) : Bool :=
  c = '\t' || (32 ≤ c.toNat && c.toNat ≤ 126) || 128 ≤ c.toNat

/-- Drops spaces and tabs. -/
def skipGap (text : List Char) : List Char := text.dropWhile isGap

/-- Drops a line break, when one is next. -/
def newline? : List Char → Option (List Char)
  | '\n' :: rest => some rest
  | '\r' :: '\n' :: rest => some rest
  | _ => none

/-- Drops a comment, when one is next. -/
def skipComment : List Char → List Char
  | '#' :: rest => rest.dropWhile isPrintable
  | text => text

/-- Drops what may stand at the end of a line, and the line break unless the text ends. -/
def endOfLine (text : List Char) : Except Fault (List Char) :=
  match skipComment (skipGap text) with
  | [] => .ok []
  | rest => (newline? rest).elim (.error .malformed) .ok

/-- Drops blanks, comments and line breaks. -/
def skipLines : (fuel : Nat) → List Char → List Char
  | 0, text => text
  | fuel + 1, text =>
    let rest := skipGap text
    match newline? (skipComment rest) with
    | some next => skipLines fuel next
    | none => rest

/-- Drops blanks and line breaks. -/
def skipBreaks : (fuel : Nat) → List Char → List Char
  | 0, text => text
  | fuel + 1, text =>
    match newline? (skipGap text) with
    | some next => skipBreaks fuel next
    | none => skipGap text

private def unicodeEscape (width : Nat) (text : List Char) : Reading Char :=
  let digits := text.take width
  if digits.length < width || !digits.all Characters.isHex then .error .malformed
  else
    let n := digits.foldl (fun n c ↦ 16 * n + (Characters.hexValue? c).getD 0) 0
    if n.isValidChar then .ok (Char.ofNat n, text.drop width) else .error .malformed

/-- The character of an escape, whose backslash was read. -/
def escape : List Char → Reading Char
  | 'b' :: rest => .ok ('\x08', rest)
  | 't' :: rest => .ok ('\t', rest)
  | 'n' :: rest => .ok ('\n', rest)
  | 'f' :: rest => .ok ('\x0c', rest)
  | 'r' :: rest => .ok ('\r', rest)
  | '"' :: rest => .ok ('"', rest)
  | '\\' :: rest => .ok ('\\', rest)
  | 'u' :: rest => unicodeEscape 4 rest
  | 'U' :: rest => unicodeEscape 8 rest
  | _ => .error .malformed

/-- The rest of a basic string on one line, whose opening quote was read. -/
def basicString : (fuel : Nat) → List Char → Reading (List Char)
  | 0, _ => .error .malformed
  | fuel + 1, text =>
    match text with
    | [] => .error .malformed
    | c :: rest =>
      if c = '"' then .ok ([], rest)
      else if c = '\\' then
        match escape rest with
        | .error e => .error e
        | .ok (d, rest) => (basicString fuel rest).map fun (s, rest) ↦ (d :: s, rest)
      else if isPrintable c then (basicString fuel rest).map fun (s, rest) ↦ (c :: s, rest)
      else .error .malformed

/-- The rest of a literal string on one line, whose opening quote was read. -/
def literalString (text : List Char) : Reading (List Char) :=
  let body := text.takeWhile fun c ↦ isPrintable c && c != '\''
  match text.drop body.length with
  | '\'' :: rest => .ok (body, rest)
  | _ => .error .malformed

/-- The rest of a string over several lines, whose three opening quotes were read. Three to five
quotes end it, of which those beyond three belong to it. -/
def blockString (quote : Char) (escapes : Bool) : (fuel : Nat) → List Char → Reading (List Char)
  | 0, _ => .error .malformed
  | fuel + 1, text =>
    let quotes := (text.takeWhile (· == quote)).length
    if 3 ≤ quotes then
      let extra := min (quotes - 3) 2
      .ok (List.replicate extra quote, text.drop (3 + extra))
    else
      match text with
      | [] => .error .malformed
      | c :: rest =>
        let keep (d : Char) (rest : List Char) : Reading (List Char) :=
          (blockString quote escapes fuel rest).map fun (s, rest) ↦ (d :: s, rest)
        if escapes && c == '\\' then
          match newline? (skipGap rest) with
          | some next => blockString quote escapes fuel (skipBreaks next.length next)
          | none =>
            match escape rest with
            | .error e => .error e
            | .ok (d, rest) => keep d rest
        else
          match newline? text with
          | some next => keep '\n' next
          | none => if isPrintable c then keep c rest else .error .malformed

/-- Drops the line break that may follow the opening quotes of a string over several lines. -/
def skipFirstBreak (text : List Char) : List Char := (newline? text).getD text

/-- Reads a string of any of the four forms; `none` when no quote is next. -/
def string? (text : List Char) : Option (Reading (List Char)) :=
  match text with
  | '"' :: '"' :: '"' :: rest => some (blockString '"' true (rest.length + 1) (skipFirstBreak rest))
  | '\'' :: '\'' :: '\'' :: rest =>
    some (blockString '\'' false (rest.length + 1) (skipFirstBreak rest))
  | '"' :: rest => some (basicString (rest.length + 1) rest)
  | '\'' :: rest => some (literalString rest)
  | _ => none

/-- Whether a character may stand in a key without quotes. -/
def isBareKeyChar (c : Char) : Bool := c.isAlphanum || c = '-' || c = '_'

/-- Reads one part of a key. -/
def keyPart (text : List Char) : Reading String :=
  match text with
  | '"' :: rest => (basicString (rest.length + 1) rest).map fun (s, rest) ↦ (String.ofList s, rest)
  | '\'' :: rest => (literalString rest).map fun (s, rest) ↦ (String.ofList s, rest)
  | _ =>
    let bare := text.takeWhile isBareKeyChar
    if bare.isEmpty then .error .malformed else .ok (String.ofList bare, text.drop bare.length)

/-- How many parts or levels are too many. -/
def depthLimit : Nat := 80

/-- Reads the parts of a key that are separated by points. -/
def keyParts : (fuel : Nat) → List Char → Reading (List String)
  | 0, _ => .error .nestingTooDeep
  | fuel + 1, text =>
    match keyPart (skipGap text) with
    | .error e => .error e
    | .ok (part, rest) =>
      match skipGap rest with
      | '.' :: rest => (keyParts fuel rest).map fun (parts, rest) ↦ (part :: parts, rest)
      | rest => .ok ([part], rest)

/-- Reads a key of at least one part and fewer than `depthLimit`. -/
def key (text : List Char) : Reading (List String) := keyParts (depthLimit - 1) text

/-- Whether a text is digits of a class with single underscores between them. -/
def isDigitGroup (isDigit : Char → Bool) (text : List Char) : Bool :=
  let rec follows : List Char → Bool
    | [] => true
    | '_' :: c :: rest => isDigit c && follows rest
    | c :: rest => isDigit c && follows rest
  match text with
  | [] => false
  | c :: rest => isDigit c && follows rest

/-- A text without its leading sign. -/
def unsigned : List Char → List Char
  | '+' :: rest => rest
  | '-' :: rest => rest
  | text => text

/-- Whether a text is a decimal number without leading zeros. -/
def isDecimal (text : List Char) : Bool :=
  isDigitGroup Char.isDigit text && (text = ['0'] || text.head? != some '0')

private def groupValue (base : Nat) (text : List Char) : Nat :=
  (text.filter (· != '_')).foldl (fun n c ↦ base * n + (Characters.hexValue? c).getD 0) 0

/-- The integer that a word spells. -/
def integer? (word : List Char) : Option Int :=
  match word with
  | '0' :: 'x' :: digits =>
    if isDigitGroup Characters.isHex digits then some (groupValue 16 digits) else none
  | '0' :: 'o' :: digits =>
    if isDigitGroup (fun c ↦ '0' ≤ c && c ≤ '7') digits then some (groupValue 8 digits) else none
  | '0' :: 'b' :: digits =>
    if isDigitGroup (fun c ↦ c = '0' || c = '1') digits then some (groupValue 2 digits) else none
  | _ =>
    if isDecimal (unsigned word) then
      let n : Int := groupValue 10 (unsigned word)
      some (if word.head? = some '-' then -n else n)
    else none

/-- Whether a word spells a number with a fraction or an exponent. -/
def isFloat (word : List Char) : Bool :=
  let body := unsigned word
  let whole := body.takeWhile fun c ↦ c.isDigit || c = '_'
  let isExponent : List Char → Bool
    | [] => false
    | mark :: digits =>
      (mark = 'e' || mark = 'E') && isDigitGroup Char.isDigit (unsigned digits)
  isDecimal whole &&
    match body.drop whole.length with
    | '.' :: rest =>
      let places := rest.takeWhile fun c ↦ c.isDigit || c = '_'
      let exponent := rest.drop places.length
      isDigitGroup Char.isDigit places && (exponent.isEmpty || isExponent exponent)
    | exponent => isExponent exponent

-- The number that exactly `width` digits at the head of a text denote, and the rest.
private def digits? (width : Nat) (text : List Char) : Option (Nat × List Char) :=
  let digits := text.take width
  if digits.length = width ∧ digits.all Char.isDigit then
    some (Binary64.decimalValue 0 digits, text.drop width)
  else none

/-- The number of days in a month. -/
def daysInMonth (year month : Nat) : Nat :=
  if month = 2 then
    if year % 4 = 0 ∧ (year % 100 ≠ 0 ∨ year % 400 = 0) then 29 else 28
  else if [4, 6, 9, 11].contains month then 30 else 31

/-- Reads a calendar date. -/
def date? (text : List Char) : Option (List Char) := do
  let (year, rest) ← digits? 4 text
  let (month, rest) ← digits? 2 (← Characters.dropPrefix? ['-'] rest)
  let (day, rest) ← digits? 2 (← Characters.dropPrefix? ['-'] rest)
  if 1 ≤ month ∧ month ≤ 12 ∧ 1 ≤ day ∧ day ≤ daysInMonth year month then some rest else none

private def hourMinute? (text : List Char) : Option (List Char) := do
  let (hour, rest) ← digits? 2 text
  let (minute, rest) ← digits? 2 (← Characters.dropPrefix? [':'] rest)
  if hour < 24 ∧ minute < 60 then some rest else none

/-- Reads a time of day, with seconds and perhaps a fraction of them. -/
def time? (text : List Char) : Option (List Char) := do
  let rest ← hourMinute? text
  let (second, rest) ← digits? 2 (← Characters.dropPrefix? [':'] rest)
  if 60 < second then none
  else
    match rest with
    | '.' :: c :: more => if c.isDigit then some (more.dropWhile Char.isDigit) else none
    | _ => some rest

private def offset? : List Char → Option (List Char)
  | 'Z' :: rest => some rest
  | 'z' :: rest => some rest
  | '+' :: rest => hourMinute? rest
  | '-' :: rest => hourMinute? rest
  | rest => some rest

/-- Whether a word is a date, a time, or both joined by `T` or a space. -/
def isMoment (word : List Char) : Bool :=
  let joined (rest : List Char) : Option (List Char) := do offset? (← time? rest)
  match date? word with
  | some [] => true
  | some (mark :: rest) => (mark = 'T' || mark = 't' || mark = ' ') && joined rest == some []
  | none => time? word == some []

/-- Whether a character may stand in a number, a date or a truth value. -/
def isWordChar (c : Char) : Bool := c.isAlphanum || "+-_.:".toList.contains c

/-- Reads a word; a space inside it is taken only between a date and digits. -/
def word (text : List Char) : List Char × List Char :=
  let first := text.takeWhile isWordChar
  match date? first, text.drop first.length with
  | some [], ' ' :: c :: rest =>
    if c.isDigit then
      let second := (c :: rest).takeWhile isWordChar
      (first ++ ' ' :: second, (c :: rest).drop second.length)
    else (first, ' ' :: c :: rest)
  | _, rest => (first, rest)

/-- The value of a word. -/
def wordValue (word : List Char) : Except Fault Value :=
  if word = "true".toList then .ok (.bool true)
  else if word = "false".toList then .ok (.bool false)
  else if isMoment word then .ok .moment
  else if isFloat word || [['i', 'n', 'f'], ['n', 'a', 'n']].contains (unsigned word) then
    match Binary64.parse? (word.filter (· != '_')) with
    | none => .error .malformed
    | some x =>
      if isFloat word && x == .infinity false then .error .outOfRange else .ok (.float x)
  else
    match integer? word with
    | none => .error .malformed
    | some n =>
      if -0x8000000000000000 ≤ n ∧ n < 0x8000000000000000 then .ok (.integer n)
      else .error .outOfRange

end LayeredConfig.Toml
