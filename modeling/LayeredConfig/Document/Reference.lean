import LayeredConfig.Document.Parse
import LayeredConfig.FileSystem.Lookup

/-!
# Finding documents

A document is asked for by an identifier: a bare name or a path, with or without an extension. It
is the file of that name below the root or, when there is none, the default document beside it.
-/

namespace LayeredConfig.Document

/-- A document that was found: the name of its file and the directory that holds it. -/
structure Reference where
  name : String
  directory : Path
deriving DecidableEq, Repr, Inhabited

/-- What the name of a default document begins with. -/
def defaultLead : String := "d."

/-- The extension of documents, added to identifiers that have none of the known ones. -/
def documentExtension : String := "yaml"

/-- The extensions that an identifier may already have. -/
def knownExtensions : List String := ["yaml", "yml"]

/-- A file name with the extension of documents, unless it has a known one. -/
def withExtension (name : String) : String :=
  match Path.extensionOf name with
  | some extension =>
    if knownExtensions.contains extension then name else name ++ "." ++ documentExtension
  | none => name ++ "." ++ documentExtension

/-- The name of the default document for a name. -/
def defaultName (name : String) : String := defaultLead ++ name

/-- The directory in which an identifier is looked up. -/
def directoryOf (root identifier : Path) : Path :=
  match identifier.parent? with
  | some parent => if parent.text = "" then root else root.join parent
  | none => root

namespace Reference

/-- The path of a document. -/
def path (reference : Reference) : Path := reference.directory.child reference.name

/-- Whether the name is that of a default document. -/
def isDefault (reference : Reference) : Bool :=
  (Characters.dropPrefix? defaultLead.toList reference.name.toList).isSome

/-- The document of the given name that an identifier asks for first, if it can name a document. -/
def primary? (root identifier : Path) : Option Reference :=
  identifier.fileName?.map fun name ↦ ⟨withExtension name, directoryOf root identifier⟩

/-- The default document beside a document. -/
def fallback (reference : Reference) : Reference :=
  { reference with name := defaultName reference.name }

/-- The document that an identifier stands for. -/
def resolve (fs : FileSystem) (root : Path) (identifier : String) : Except Fault Reference :=
  match primary? root ⟨identifier⟩ with
  | none => .error (.notFound (root.join ⟨identifier⟩))
  | some primary =>
    if fs.isFile primary.path then .ok primary
    else if fs.isFile primary.fallback.path then .ok primary.fallback
    else .error (.notFound primary.path)

/-- The documents that identifiers stand for, in order. The first that cannot be found is the
fault. -/
def resolveAll (fs : FileSystem) (root : Path) : List String → Except Fault (List Reference)
  | [] => .ok []
  | identifier :: rest =>
    match resolve fs root identifier with
    | .error fault => .error fault
    | .ok reference => (resolveAll fs root rest).map (reference :: ·)

end Reference

end LayeredConfig.Document
