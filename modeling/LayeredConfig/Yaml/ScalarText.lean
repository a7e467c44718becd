import LayeredConfig.Characters.Hex
import LayeredConfig.Yaml.Cursor
import LayeredConfig.Yaml.Fault

/-!
# The text of scalars

Plain, quoted and block scalars are read from a cursor. Where a flow scalar spans lines, a single
break between two lines becomes a space, and of several breaks the first is dropped.
-/

namespace LayeredConfig.Yaml

/-- Blanks and line breaks between two parts of a flow scalar. -/
structure Gap where
  blanks : List Char
  first : List Char
  more : List Char
  broken : Bool

namespace Gap

/-- The gap before anything was read; an escaped line break counts as a break without text. -/
def opening (broken : Bool) : Gap := ⟨[], [], [], broken⟩

/-- The text that a gap contributes to the scalar. -/
def text (gap : Gap) : List Char :=
  if !gap.broken then gap.blanks
  else if gap.first.head? = some '\n' then
    if gap.more.isEmpty then [' '] else gap.more
  else gap.first ++ gap.more

/-- Reads blanks and breaks. Behind a break, a tab left of column `limit` is a fault. -/
def read (limit : Nat) : (fuel : Nat) → Gap → Cursor → Except Fault (Gap × Cursor)
  | 0, gap, c => .ok (gap, c)
  | fuel + 1, gap, c =>
    match c.rest with
    | [] => .ok (gap, c)
    | d :: _ =>
      if isGap d then
        if gap.broken && d == '\t' && c.column < limit then .error .tabIndentation
        else if gap.broken then read limit fuel gap (c.advance 1)
        else read limit fuel { gap with blanks := gap.blanks ++ [d] } (c.advance 1)
      else if isBreak d then
        let (text, next) := c.readBreak
        if gap.broken then read limit fuel { gap with more := gap.more ++ text } next
        else read limit fuel ⟨[], text, [], true⟩ next
      else .ok (gap, c)

end Gap

/-- The leading part of a plain scalar that is free of blanks: how many characters it has, ending
before a colon that separates a key from its value and, in a flow collection, before an indicator.
-/
def plainRun (inFlow : Bool) : List Char → Except Fault Nat
  | [] => .ok 0
  | c :: rest =>
    if isGap c || isBreak c then .ok 0
    else if inFlow && c == ':' && rest.head?.any (fun d ↦ isFlowIndicator d || d == '?') then
      .error .unexpectedColon
    else if c == ':' && rest.head?.all (fun d ↦ isGap d || isBreak d) then .ok 0
    else if inFlow && isFlowIndicator c then .ok 0
    else (plainRun inFlow rest).map (· + 1)

/-- A scalar that was read: its text, the cursor behind it, and whether it ended at a line break. -/
structure ScalarText where
  text : List Char
  after : Cursor
  broken : Bool

/-- Reads the parts of a plain scalar. In a block, a line left of column `indent` ends it. -/
def readPlain (inFlow : Bool) (indent : Nat) :
    (fuel : Nat) → List Char → Gap → Cursor → Except Fault ScalarText
  | 0, text, gap, c => .ok ⟨text, c, gap.broken⟩
  | fuel + 1, text, gap, c =>
    if c.isAnyMarker || c.isAt '#' then .ok ⟨text, c, gap.broken⟩
    else
      match plainRun inFlow c.rest with
      | .error e => .error e
      | .ok count =>
        let text := if count = 0 then text else text ++ gap.text ++ c.rest.take count
        let gap := if count = 0 then gap else .opening false
        let c := c.advance count
        if !(c.rest.head?.any fun d ↦ isGap d || isBreak d) then .ok ⟨text, c, gap.broken⟩
        else
          match gap.read indent c.rest.length c with
          | .error e => .error e
          | .ok (gap, c) =>
            if !inFlow && c.column < indent then .ok ⟨text, c, gap.broken⟩
            else readPlain inFlow indent fuel text gap c

/-- Reads a plain scalar. -/
def plainScalar (inFlow : Bool) (indent : Nat) (c : Cursor) : Except Fault ScalarText :=
  readPlain inFlow indent (c.rest.length + 1) [] (.opening false) c

/-- The character that a one-letter escape stands for. -/
def simpleEscape? (c : Char) : Option Char :=
  if c = '0' then some '\x00'
  else if c = 'a' then some '\x07'
  else if c = 'b' then some '\x08'
  else if c = 't' ∨ c = '\t' then some '\t'
  else if c = 'n' then some '\n'
  else if c = 'v' then some '\x0b'
  else if c = 'f' then some '\x0c'
  else if c = 'r' then some '\r'
  else if c = 'e' then some '\x1b'
  else if c = ' ' ∨ c = '"' ∨ c = '/' ∨ c = '\\' then some c
  else if c = 'N' then some '\u0085'
  else if c = '_' then some '\u00a0'
  else if c = 'L' then some '\u2028'
  else if c = 'P' then some '\u2029'
  else none

/-- The number of hexadecimal digits behind a numeric escape. -/
def escapeWidth? (c : Char) : Option Nat :=
  if c = 'x' then some 2 else if c = 'u' then some 4 else if c = 'U' then some 8 else none

/-- The number that exactly `width` hexadecimal digits denote. -/
def hexNumber? (width : Nat) (text : List Char) : Option Nat :=
  let digits := text.take width
  if digits.length < width then none
  else digits.foldl (fun value c ↦ do return 16 * (← value) + (← Characters.hexValue? c)) (some 0)

/-- The character of an escape and the number of characters it takes behind the backslash. -/
def readEscape : List Char → Except Fault (Char × Nat)
  | [] => .error .badEscape
  | c :: rest =>
    match simpleEscape? c, escapeWidth? c with
    | some d, _ => .ok (d, 1)
    | none, some width =>
      match hexNumber? width rest with
      | some n =>
        if n.isValidChar then .ok (Char.ofNat n, width + 1) else .error .badEscape
      | none => .error .badEscape
    | none, none => .error .badEscape

/-- Where a run of a quoted scalar ended. -/
inductive RunEnd where
  | blank
  | escapedBreak
  | quote

/-- Reads the part of a quoted scalar up to a blank, a break or the closing quote. The characters
read so far are held last first. -/
def quotedRun (single : Bool) :
    (fuel : Nat) → List Char → Cursor → Except Fault (List Char × Cursor × RunEnd)
  | 0, read, c => .ok (read.reverse, c, .blank)
  | fuel + 1, read, c =>
    match c.rest with
    | [] => .ok (read.reverse, c, .blank)
    | d :: rest =>
      if isGap d || isBreak d then .ok (read.reverse, c, .blank)
      else if single then
        if d != '\'' then quotedRun single fuel (d :: read) (c.advance 1)
        else if rest.head? = some '\'' then quotedRun single fuel (d :: read) (c.advance 2)
        else .ok (read.reverse, c, .quote)
      else if d == '"' then .ok (read.reverse, c, .quote)
      else if d != '\\' then quotedRun single fuel (d :: read) (c.advance 1)
      else if rest.head?.any isBreak then
        .ok (read.reverse, (c.advance 1).readBreak.2, .escapedBreak)
      else
        match readEscape rest with
        | .error e => .error e
        | .ok (e, width) => quotedRun single fuel (e :: read) (c.advance (width + 1))

/-- Reads the runs and gaps of a quoted scalar up to its closing quote. -/
def readQuoted (single : Bool) :
    (fuel : Nat) → List Char → Cursor → Except Fault ScalarText
  | 0, _, _ => .error .unclosedQuote
  | fuel + 1, text, c =>
    if c.isAnyMarker || c.rest.isEmpty then .error .unclosedQuote
    else
      match quotedRun single c.rest.length [] c with
      | .error e => .error e
      | .ok (run, c, .quote) => .ok ⟨text ++ run, c.advance 1, false⟩
      | .ok (run, c, runEnd) =>
        let opening := Gap.opening (runEnd matches .escapedBreak)
        match opening.read 0 c.rest.length c with
        | .error e => .error e
        | .ok (gap, c) => readQuoted single fuel (text ++ run ++ gap.text) c

/-- Reads a quoted scalar whose opening quote is next. -/
def quotedScalar (single : Bool) (c : Cursor) : Except Fault ScalarText :=
  readQuoted single (c.rest.length + 1) [] (c.advance 1)

/-- How a block scalar treats the line breaks at its end. -/
inductive Chomping where
  | strip
  | clip
  | keep
deriving DecidableEq, Repr

/-- The chomping indicator that a character is. -/
def chomping? (c : Char) : Option Chomping :=
  if c = '-' then some .strip else if c = '+' then some .keep else none

/-- The header of a block scalar: chomping and indentation indicators in either order. -/
def blockHeader (c : Cursor) : Except Fault (Chomping × Nat × Cursor) :=
  let digit (d : Char) (c : Cursor) : Except Fault (Nat × Cursor) :=
    if d = '0' then .error .badBlockHeader else .ok (d.toNat - '0'.toNat, c.advance 1)
  match c.rest with
  | [] => .ok (.clip, 0, c)
  | d :: rest =>
    match chomping? d with
    | some chomping =>
      match rest with
      | [] => .ok (chomping, 0, c.advance 1)
      | e :: _ =>
        if e.isDigit then (digit e (c.advance 1)).map fun (n, c) ↦ (chomping, n, c)
        else .ok (chomping, 0, c.advance 1)
    | none =>
      if d.isDigit then
        (digit d c).map fun (n, after) ↦
          match rest.head?.bind chomping? with
          | some chomping => (chomping, n, after.advance 1)
          | none => (.clip, n, after)
      else .ok (.clip, 0, c)

/-- Reads indentation and empty lines of a block scalar. With no indentation known yet, `indent` is
zero and all spaces are taken. Gives the breaks read and the widest indentation seen. -/
def blockBreaks (indent : Nat) :
    (fuel : Nat) → List Char → Nat → Cursor → Except Fault (List Char × Nat × Cursor)
  | 0, breaks, widest, c => .ok (breaks, widest, c)
  | fuel + 1, breaks, widest, c =>
    let spaces := (c.rest.takeWhile (· == ' ')).length
    let count := if indent = 0 then spaces else min spaces (indent - c.column)
    let c := c.advance count
    let widest := max widest c.column
    if (indent = 0 || c.column < indent) && c.isAt '\t' then .error .tabIndentation
    else if c.rest.head?.any isBreak then
      let (text, next) := c.readBreak
      blockBreaks indent fuel (breaks ++ text) widest next
    else .ok (breaks, widest, c)

/-- What a block scalar has read so far. -/
structure BlockState where
  text : List Char
  leading : List Char
  trailing : List Char
  wasBlank : Bool

/-- Reads the content lines of a block scalar. -/
def readBlock (literal : Bool) (indent : Nat) :
    (fuel : Nat) → BlockState → Cursor → Except Fault (BlockState × Cursor)
  | 0, s, c => .ok (s, c)
  | fuel + 1, s, c =>
    if c.column != indent || c.rest.isEmpty then .ok (s, c)
    else
      let blank := c.rest.head?.any isGap
      let folds := !literal && s.leading.head? = some '\n' && !s.wasBlank && !blank
      let joint :=
        if !folds then s.leading else if s.trailing.isEmpty then [' '] else []
      let line := c.rest.takeWhile fun d ↦ !isBreak d
      let (leading, next) := (c.advance line.length).readBreak
      match blockBreaks indent (next.rest.length + 1) [] 0 next with
      | .error e => .error e
      | .ok (trailing, _, next) =>
        readBlock literal indent fuel
          ⟨s.text ++ joint ++ s.trailing ++ line, leading, trailing, blank⟩ next

/-- Reads a block scalar whose indicator is next, in a block with the given indentation. -/
def blockScalar (literal : Bool) (parentIndent : Int) (c : Cursor) : Except Fault ScalarText :=
  match blockHeader (c.advance 1) with
  | .error e => .error e
  | .ok (chomping, increment, c) =>
    let c := (c.skipWhile isGap).skipComment
    if !c.isBreakOrEnd 0 then .error .badBlockHeader
    else
      let c := c.readBreak.2
      let stated := if increment = 0 then 0 else parentIndent.toNat + increment
      match blockBreaks stated (c.rest.length + 1) [] 0 c with
      | .error e => .error e
      | .ok (trailing, widest, c) =>
        let indent := if stated = 0 then max widest (max (parentIndent + 1).toNat 1) else stated
        match readBlock literal indent (c.rest.length + 1) ⟨[], [], trailing, false⟩ c with
        | .error e => .error e
        | .ok (s, c) =>
          let tail := match chomping with
            | .strip => []
            | .clip => s.leading
            | .keep => s.leading ++ s.trailing
          .ok ⟨s.text ++ tail, c, true⟩

end LayeredConfig.Yaml
