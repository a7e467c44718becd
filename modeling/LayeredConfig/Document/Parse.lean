import LayeredConfig.Characters.Blank
import LayeredConfig.Document.Conversion
import LayeredConfig.Path
import LayeredConfig.Yaml.Load

/-!
# Parsing a document

A document is a YAML text whose root is a mapping, a sequence or null. A text in which every line
is blank, a comment or a document marker is the empty tree without further ado.
-/

namespace LayeredConfig.Document

/-- Why a document cannot be used. Every fault names the document. -/
inductive Fault where
  /-- No document answers to the identifier; the path is the one that was wanted. -/
  | notFound (path : Path)
  /-- The file cannot be read, or is not UTF-8 text. -/
  | unreadable (path : Path)
  /-- The text is not valid YAML. -/
  | malformed (path : Path) (fault : Yaml.Fault)
  /-- Some mapping has a key that is no scalar. -/
  | keyIsCollection (path : Path)
  /-- The root is a scalar or carries a tag. -/
  | invalidRoot (path : Path)
deriving DecidableEq, Repr

namespace Fault

/-- The wording of a fault. -/
def message : Fault → String
  | notFound path => "Document not found: " ++ path.quoted
  | unreadable path => "IO error reading " ++ path.quoted ++ ": cannot be read as text"
  | malformed path fault => "Parse error in " ++ path.quoted ++ ": " ++ fault.message
  | keyIsCollection path => "Parse error in " ++ path.quoted ++ ": mapping keys must be scalars"
  | invalidRoot path =>
    "Invalid document root in " ++ path.quoted ++ ": expected a mapping or a sequence"

end Fault

/-- The lines of a text, split at line feeds. A line feed at the end opens no further line. -/
def lines : List Char → List (List Char)
  | [] => []
  | c :: rest =>
    if c = '\n' then [] :: lines rest
    else match lines rest with
      | [] => [[c]]
      | line :: more => (c :: line) :: more

/-- Whether a line holds no configuration: it is blank, a comment or a document marker. -/
def isIdleLine (line : List Char) : Bool :=
  match Characters.trim line with
  | [] => true
  | '#' :: _ => true
  | rest => rest = ['-', '-', '-']

/-- Whether no line of a text holds configuration. -/
def isBlank (text : String) : Bool := (lines text.toList).all isIdleLine

/-- The tree of a YAML value at the root of a document. -/
def rootTree (sigil : Char) (origin : Path) : Yaml.Value → Except Fault Tree
  | .null => .ok []
  | .mapping pairs => (convertPairs sigil [] pairs).mapError fun _ ↦ .keyIsCollection origin
  | .sequence items => (convertItems sigil [] 0 items).mapError fun _ ↦ .keyIsCollection origin
  | _ => .error (.invalidRoot origin)

/-- The tree of a document text; `origin` is named in faults. -/
def parse (sigil : Char) (origin : Path) (text : String) : Except Fault Tree :=
  if isBlank text then .ok []
  else
    match Yaml.read text with
    | .error fault => .error (.malformed origin fault)
    | .ok value => rootTree sigil origin value

end LayeredConfig.Document
