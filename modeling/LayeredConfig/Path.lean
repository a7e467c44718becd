import LayeredConfig.Characters.Printable

/-!
# Paths

A path is a text whose parts are separated by slashes. Repeated slashes and parts that are a single
dot mean nothing, save for a dot that opens a relative path; two dots go up. A path is kept as it
was written: joining and taking the parent never normalise what is left of it.
-/

namespace LayeredConfig

/-- A path as it is written. -/
structure Path where
  text : String
deriving DecidableEq, Repr, Inhabited

namespace Path

/-- Splits a text at every slash; there is always at least one part. -/
def splitSlashes : List Char → List (List Char)
  | [] => [[]]
  | c :: rest =>
    if c = '/' then [] :: splitSlashes rest
    else match splitSlashes rest with
      | [] => [[c]]
      | part :: more => (c :: part) :: more

/-- Joins parts by slashes. -/
def joinSlashes : List (List Char) → List Char
  | [] => []
  | [part] => part
  | part :: rest => part ++ '/' :: joinSlashes rest

/-- Whether a path starts at the root. -/
def isAbsolute (path : Path) : Bool := path.text.toList.head? = some '/'

/-- The opening slash or single dot of a path and what follows it. -/
def splitLead : List Char → List Char × List Char
  | '/' :: rest => (['/'], rest)
  | ['.'] => (['.'], [])
  | '.' :: '/' :: rest => (['.'], '/' :: rest)
  | text => ([], text)

/-- Whether a part stands for nothing. -/
def isIdlePart (part : List Char) : Bool := part = [] || part = ['.']

/-- The parts behind the lead in reverse order, without the idle ones at the end of the path. -/
def reversedParts (body : List Char) : List (List Char) :=
  (splitSlashes body).reverse.dropWhile isIdlePart

/-- The last part, unless the path is empty, the root, a single dot or ends in two dots. -/
def fileName? (path : Path) : Option String :=
  match reversedParts (splitLead path.text.toList).2 with
  | [] => none
  | last :: _ => if last = ['.', '.'] then none else some (String.ofList last)

/-- The path without its last part; `none` when there is no part to drop. -/
def parent? (path : Path) : Option Path :=
  let (lead, body) := splitLead path.text.toList
  match reversedParts body with
  | [] => if lead = ['.'] then some ⟨""⟩ else none
  | _ :: before =>
    some ⟨String.ofList (lead ++ joinSlashes (before.dropWhile isIdlePart).reverse)⟩

/-- Appends a path with one slash between; an absolute right side replaces the left one. -/
def join (base : Path) (extra : Path) : Path :=
  if extra.isAbsolute then extra
  else match base.text.toList.getLast? with
    | none => extra
    | some '/' => ⟨base.text ++ extra.text⟩
    | some _ => ⟨base.text ++ "/" ++ extra.text⟩

/-- Appends a name to a directory. -/
def child (directory : Path) (name : String) : Path := directory.join ⟨name⟩

/-- The stem and the extension of a file name: the parts around its last dot, which must not open
the name. A name without such a dot is all stem. -/
def splitExtension (name : List Char) : List Char × Option (List Char) :=
  let after := (name.reverse.takeWhile (· != '.')).reverse
  match (name.reverse.dropWhile (· != '.')).reverse.dropLast with
  | [] => (name, none)
  | stem => (stem, some after)

/-- The extension of a file name, if it has one. -/
def extensionOf (name : String) : Option String :=
  (splitExtension name.toList).2.map String.ofList

/-- The file name without its extension. -/
def stemOf (name : String) : String := String.ofList (splitExtension name.toList).1

/-- A character inside a quoted path. -/
def quoteChar (c : Char) : List Char :=
  if c = '"' then ['\\', '"']
  else if c = '\\' then ['\\', '\\']
  else if c = '\t' then ['\\', 't']
  else if c = '\n' then ['\\', 'n']
  else if c = '\r' then ['\\', 'r']
  else if c = '\x00' then ['\\', '0']
  else if Characters.isShown c then [c]
  else ['\\', 'u', '\x7b'] ++ Nat.toDigits 16 c.toNat ++ ['\x7d']

/-- A path in double quotes, as messages show it. -/
def quoted (path : Path) : String :=
  String.ofList ('"' :: path.text.toList.flatMap quoteChar ++ ['"'])

end Path

end LayeredConfig
