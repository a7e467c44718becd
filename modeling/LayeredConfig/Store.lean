import LayeredConfig.Code.Artifact
import LayeredConfig.Document.Reference
import LayeredConfig.Failure
import LayeredConfig.FileSystem.Change
import LayeredConfig.Signature

/-!
# The store of artifacts

An artifact is a file in the directory of the store, named by its signature and the extension of
the store. It is written once; from then on the file alone decides that nothing is compiled again,
whatever it holds.
-/

namespace LayeredConfig

/-- Generated code with its signature and its source documents. -/
structure Artifact where
  signature : Signature
  code : String
  sources : List Document.Reference
deriving Repr

/-- The text of an artifact: a header that names the sources, and the code. -/
def Artifact.text (artifact : Artifact) : String :=
  Code.renderArtifact (artifact.sources.map fun source ↦ source.path.text) artifact.code

/-- What came of compiling: the documents that were opened to parse them, the signature of the
artifact or a failure, and the files afterwards. -/
structure Compilation where
  opened : List Path
  result : Except Failure Signature
  files : FileSystem

/-- A directory of artifacts with a common extension. -/
structure Store where
  directory : Path
  extension : String
deriving DecidableEq, Repr

namespace Store

/-- The file name of the artifact with a signature. -/
def fileName (store : Store) (signature : Signature) : String :=
  signature.name ++ "." ++ store.extension

/-- The path of the artifact with a signature. -/
def artifactPath (store : Store) (signature : Signature) : Path :=
  store.directory.child (store.fileName signature)

/-- Whether an artifact with a signature is there. -/
def contains (store : Store) (fs : FileSystem) (signature : Signature) : Bool :=
  fs.isFile (store.artifactPath signature)

/-- Writes an artifact, making the directory of the store first: the text goes to a temporary file
in that directory, which is moved into place. The directory stays even if the artifact cannot be
written. -/
def write (store : Store) (artifact : Artifact) (fs : FileSystem) :
    Except Failure Path × FileSystem :=
  let path := store.artifactPath artifact.signature
  let made := fs.createDirectories store.directory
  if store.directory.text = "" ∨ made.isDirectory store.directory then
    match made.temporaryPath? store.directory with
    | none => (.error (.unwritable path), made)
    | some temporary =>
      match made.writeThrough temporary path artifact.text.toUTF8 with
      | (.error _, files) => (.error (.unwritable path), files)
      | (.ok _, files) => (.ok path, files)
  else (.error (.unwritable path), made)

/-- The signature of an artifact that is there, or else of the artifact that is made and written.
What making it opened is passed on; an artifact that is there is not made. -/
def getOrMake (store : Store) (signature : Signature)
    (make : Unit → List Path × Except Failure Artifact) (fs : FileSystem) : Compilation :=
  if store.contains fs signature then { opened := [], result := .ok signature, files := fs }
  else
    match make () with
    | (opened, .error failure) => { opened := opened, result := .error failure, files := fs }
    | (opened, .ok artifact) =>
      let (result, written) := store.write artifact fs
      { opened := opened, result := result.map fun _ ↦ artifact.signature, files := written }

/-- The same for an artifact that is made without opening documents. -/
def getOrWrite (store : Store) (signature : Signature) (make : Unit → Except Failure Artifact)
    (fs : FileSystem) : Except Failure Signature × FileSystem :=
  let compilation := store.getOrMake signature (fun _ ↦ ([], make ())) fs
  (compilation.result, compilation.files)

/-- The text of the artifact with a signature. -/
def load (store : Store) (fs : FileSystem) (signature : Signature) : Except Failure String :=
  let path := store.artifactPath signature
  (fs.readText path).mapError fun _ ↦ .unreadable path

/-- Whether a name in the directory is that of an artifact: a file with the extension of the store,
whose stem begins like a signature. -/
def isArtifact (store : Store) (fs : FileSystem) (name : String) : Bool :=
  fs.isFile (store.directory.child name) && Path.extensionOf name == some store.extension
    && (Characters.dropPrefix? Signature.lead.toList (Path.stemOf name).toList).isSome

/-- Removes every artifact, up to the first that cannot be removed, and tells how many there were. A
directory that is missing holds none. -/
def clear (store : Store) (fs : FileSystem) : Except Failure Nat × FileSystem :=
  match fs.names store.directory with
  | .error .missing => (.ok 0, fs)
  | .error _ => (.error (.unreadable store.directory), fs)
  | .ok names =>
    let artifacts := names.filter (store.isArtifact fs)
    match fs.removeFiles (artifacts.map store.directory.child) with
    | (.error path, rest) => (.error (.unwritable path), rest)
    | (.ok _, rest) => (.ok artifacts.length, rest)

end Store

end LayeredConfig
