import LayeredConfig.Document.Reference
import LayeredConfig.Tree.Merge
import LayeredConfig.Value.View

/-!
# Loading documents

Documents are parsed in order and merged, later ones winning. A loading also tells which documents
were opened: all of them, or those up to the first that has a fault.
-/

namespace LayeredConfig.Document

/-- The configuration that documents give together, and the documents. -/
structure Merged where
  tree : Tree
  sources : List Reference
deriving Repr

namespace Merged

/-- The paths of the sources in order. -/
def provenance (merged : Merged) : List Path := merged.sources.map Reference.path

/-- A source as JSON data. -/
def sourceJson (reference : Reference) : Json :=
  .object [("name", .string reference.name), ("directory", .string reference.directory.text)]

/-- The configuration and its sources as JSON data; literal texts carry the sigil. -/
def toJson (sigil : Char) (merged : Merged) : Json :=
  .object [("tree", merged.tree.toJson sigil), ("sources", .array (merged.sources.map sourceJson))]

end Merged

/-- What came of parsing documents. -/
structure Loading (α : Type) where
  /-- The documents that were opened, in order. -/
  opened : List Path
  result : Except Fault α

/-- Reads one document. -/
def read (fs : FileSystem) (sigil : Char) (path : Path) : Except Fault Tree :=
  match fs.readText path with
  | .error _ => .error (.unreadable path)
  | .ok text => parse sigil path text

/-- Merges documents in order into a tree. -/
def mergeInto (fs : FileSystem) (sigil : Char) (tree : Tree) : List Path → Loading Tree
  | [] => { opened := [], result := .ok tree }
  | path :: rest =>
    match read fs sigil path with
    | .error fault => { opened := [path], result := .error fault }
    | .ok next =>
      let loading := mergeInto fs sigil (tree.merge next) rest
      { opened := path :: loading.opened, result := loading.result }

/-- Loads documents in order. -/
def load (fs : FileSystem) (sigil : Char) (sources : List Reference) : Loading Merged :=
  let loading := mergeInto fs sigil [] (sources.map Reference.path)
  { opened := loading.opened, result := loading.result.map fun tree ↦ ⟨tree, sources⟩ }

end LayeredConfig.Document
