import LayeredConfig.Toml.Lexical

/-!
# TOML documents

A document is a list of headers and keyed values. A header chooses the table that the values behind
it go to; a dotted key goes to a table below that one. What may be added where depends on how a
table came to be.
-/

namespace LayeredConfig.Toml

-- The entries of a value that a path may lead through: a table, or the last of several.
private def enter? (throughDots : Bool) : Value → Option (Table × (Table → Value))
  | .table origin entries =>
    if origin = .inline ∨ (throughDots ∧ origin = .header) then none
    else some (entries, .table origin)
  | .tables elements =>
    match elements.reverse with
    | [] => none
    | last :: before => some (last, fun entries ↦ .tables (entries :: before).reverse)
  | _ => none

/-- Changes the table at a path below a table. Tables that are missing on the way are made; with
`throughDots` the path belongs to a dotted key and may not pass a table that a header names. -/
def updateAt (throughDots : Bool) (change : Table → Except Fault Table) :
    (path : List String) → Table → Except Fault Table
  | [], table => change table
  | key :: rest, table =>
    match table.find? key with
    | none =>
      (updateAt throughDots change rest []).map fun entries ↦
        table.set key (.table (if throughDots then .dotted else .implied) entries)
    | some value =>
      match enter? throughDots value with
      | none => .error .duplicate
      | some (entries, rebuild) =>
        (updateAt throughDots change rest entries).map fun entries ↦ table.set key (rebuild entries)

-- Whether the table at the end of a dotted key may take a value: it must have been made by one.
private def endsDotted : (path : List String) → Table → Bool
  | [], _ => true
  | key :: rest, table =>
    match table.find? key with
    | none => true
    | some (.table origin entries) =>
      if rest.isEmpty then origin = .dotted else endsDotted rest entries
    | some (.tables elements) => !rest.isEmpty && endsDotted rest (elements.getLast?.getD [])
    | some _ => true

/-- Stores a value under a dotted key, given as its last part and the parts before it. -/
def storeDotted (before : List String) (last : String) (value : Value) (table : Table) :
    Except Fault Table :=
  if !endsDotted before table then .error .duplicate
  else
    updateAt true
      (fun entries ↦
        if (entries.find? last).isSome then .error .duplicate
        else .ok (entries.set last value))
      before table

/-- Stores a value under a key of one or more parts. -/
def store (path : List String) (value : Value) (table : Table) : Except Fault Table :=
  match path.getLast? with
  | none => .error .malformed
  | some last => storeDotted path.dropLast last value table

/-- Opens the table that a header names. -/
def openTable (path : List String) (root : Table) : Except Fault Table :=
  match path.getLast? with
  | none => .error .malformed
  | some last =>
    updateAt false
      (fun entries ↦
        match entries.find? last with
        | none => .ok (entries.set last (.table .header []))
        | some (.table .implied inner) => .ok (entries.set last (.table .header inner))
        | some _ => .error .duplicate)
      path.dropLast root

/-- Opens a further table under an array header. -/
def openElement (path : List String) (root : Table) : Except Fault Table :=
  match path.getLast? with
  | none => .error .malformed
  | some last =>
    updateAt false
      (fun entries ↦
        match entries.find? last with
        | none => .ok (entries.set last (.tables [[]]))
        | some (.tables elements) => .ok (entries.set last (.tables (elements ++ [[]])))
        | some _ => .error .duplicate)
      path.dropLast root

mutual

/-- Reads a value below `depth` open arrays and braces. -/
def value (depth : Nat) : (fuel : Nat) → List Char → Reading Value
  | 0, _ => .error .malformed
  | fuel + 1, text =>
    match string? text with
    | some reading => reading.map fun (s, rest) ↦ (.string (String.ofList s), rest)
    | none =>
      match text with
      | '[' :: rest =>
        if depthLimit ≤ depth + 1 then .error .nestingTooDeep
        else (arrayItems (depth + 1) fuel rest).map fun (items, rest) ↦ (.array items, rest)
      | '\x7b' :: rest =>
        if depthLimit ≤ depth + 1 then .error .nestingTooDeep
        else
          match skipGap rest with
          | '\x7d' :: rest => .ok (.table .inline [], rest)
          | rest =>
            (inlineEntries (depth + 1) [] fuel rest).map fun (entries, rest) ↦
              (.table .inline entries, rest)
      | _ =>
        let (chars, rest) := word text
        (wordValue chars).map fun v ↦ (v, rest)

/-- Reads the items of an array up to its closing bracket. -/
def arrayItems (depth : Nat) : (fuel : Nat) → List Char → Reading (List Value)
  | 0, _ => .error .malformed
  | fuel + 1, text =>
    match skipLines text.length text with
    | ']' :: rest => .ok ([], rest)
    | start =>
      match value depth fuel start with
      | .error e => .error e
      | .ok (item, rest) =>
        match skipLines rest.length rest with
        | ']' :: rest => .ok ([item], rest)
        | ',' :: rest =>
          (arrayItems depth fuel rest).map fun (items, rest) ↦ (item :: items, rest)
        | _ => .error .malformed

/-- Reads the entries of an inline table up to its closing brace. -/
def inlineEntries (depth : Nat) (table : Table) : (fuel : Nat) → List Char → Reading Table
  | 0, _ => .error .malformed
  | fuel + 1, text =>
    match key text with
    | .error e => .error e
    | .ok (path, '=' :: rest) =>
      match value depth fuel (skipGap rest) with
      | .error e => .error e
      | .ok (item, rest) =>
        match store path item table with
        | .error e => .error e
        | .ok table =>
          match skipGap rest with
          | '\x7d' :: rest => .ok (table, rest)
          | ',' :: rest => inlineEntries depth table fuel rest
          | _ => .error .malformed
    | .ok _ => .error .malformed

end

/-- A line of a document. -/
inductive Line where
  | empty
  | header (path : List String)
  | element (path : List String)
  | entry (path : List String) (value : Value)

private def headerKey (closing : List Char) (text : List Char) : Reading (List String) :=
  match key text with
  | .error e => .error e
  | .ok (path, rest) =>
    match Characters.dropPrefix? closing rest with
    | some rest => .ok (path, rest)
    | none => .error .malformed

/-- Reads one line, without what ends it. -/
def line (text : List Char) : Reading Line :=
  match skipGap text with
  | '[' :: '[' :: rest => (headerKey [']', ']'] rest).map fun (path, rest) ↦ (.element path, rest)
  | '[' :: rest => (headerKey [']'] rest).map fun (path, rest) ↦ (.header path, rest)
  | rest =>
    if rest.isEmpty || rest.head? = some '#' || (newline? rest).isSome then .ok (.empty, rest)
    else
      match key rest with
      | .error e => .error e
      | .ok (path, '=' :: rest) =>
        (value 0 (rest.length + 1) (skipGap rest)).map fun (v, rest) ↦ (.entry path v, rest)
      | .ok _ => .error .malformed

/-- Applies a line: the path of the table that values go to, and the root table. -/
def applyLine (current : List String) (root : Table) : Line → Except Fault (List String × Table)
  | .empty => .ok (current, root)
  | .header path => (openTable path root).map fun root ↦ (path, root)
  | .element path => (openElement path root).map fun root ↦ (path, root)
  | .entry path v => (updateAt false (store path v) current root).map fun root ↦ (current, root)

/-- Reads lines to the end of the text. -/
def readLines : (fuel : Nat) → List String → Table → List Char → Except Fault Table
  | 0, _, root, _ => .ok root
  | fuel + 1, current, root, text =>
    if text.isEmpty then .ok root
    else
      match line text with
      | .error e => .error e
      | .ok (next, rest) =>
        match applyLine current root next, endOfLine rest with
        | .error e, _ => .error e
        | _, .error e => .error e
        | .ok (current, root), .ok rest => readLines fuel current root rest

/-- The root table of a text. A byte order mark at its start is skipped. -/
def parse (text : String) : Except Fault Table :=
  let chars := match text.toList with
    | '\ufeff' :: rest => rest
    | chars => chars
  readLines (chars.length + 1) [] [] chars

end LayeredConfig.Toml
