import LayeredConfig.Code.Generator
import LayeredConfig.Document.Loading
import LayeredConfig.Options
import LayeredConfig.Settings
import LayeredConfig.Store

/-!
# Reading and compiling

Documents are found, loaded and merged. To compile them is to filter what they give, to generate
code from it, and to keep the artifact under the signature of the documents. What is kept is not
compiled again: under the default basis an edited document goes unnoticed.
-/

namespace LayeredConfig

namespace Settings

/-- What documents give together, without filtering. -/
def read (settings : Settings) (fs : FileSystem) (identifiers : List String) :
    Document.Loading Document.Merged :=
  match Document.Reference.resolveAll fs settings.root identifiers with
  | .error fault => { opened := [], result := .error fault }
  | .ok sources => Document.load fs settings.sigil sources

/-- The store that a compilation uses. -/
def storeFor (settings : Settings) (options : Options) : Store :=
  { directory := options.cacheDirectory.getD settings.cacheDirectory
    extension := settings.extension }

end Settings

/-- The path of a document followed by its bytes, for each document in order. -/
def contentParts (fs : FileSystem) : List Path → Except Failure (List SignaturePart)
  | [] => .ok []
  | path :: rest =>
    match fs.readBytes path with
    | .error _ => .error (.unsignable path)
    | .ok bytes => (contentParts fs rest).map fun parts ↦ .path path :: .content bytes :: parts

/-- The signature of documents. -/
def SignatureBasis.sign (basis : SignatureBasis) (fs : FileSystem) (paths : List Path) :
    Except Failure Signature :=
  match basis with
  | .paths => .ok (.ofPaths paths)
  | .content => (contentParts fs paths).map .ofParts

/-- The artifact that merged documents give under a signature. -/
def Document.Merged.artifact (merged : Document.Merged) (generator : Code.Generator)
    (options : Options) (signature : Signature) : Except Failure Artifact :=
  match merged.tree.applyFilters options.ignoredKeys options.keepMainKey with
  | .error cause => .error (.empty cause)
  | .ok tree =>
    match generator.generate tree with
    | .error error => .error (.generation error)
    | .ok code => .ok { signature := signature, code := code, sources := merged.sources }

/-- The artifact of a loading. -/
def Document.Loading.artifact (loading : Document.Loading Document.Merged)
    (generator : Code.Generator) (options : Options) (signature : Signature) :
    Except Failure Artifact :=
  match loading.result with
  | .error fault => .error (.document fault)
  | .ok merged => merged.artifact generator options signature

namespace Settings

/-- Compiles documents that were found, unless their artifact is kept already. -/
def compileSources (settings : Settings) (options : Options) (generator : Code.Generator)
    (sources : List Document.Reference) (fs : FileSystem) : Compilation :=
  match settings.basis.sign fs (sources.map Document.Reference.path) with
  | .error failure => { opened := [], result := .error failure, files := fs }
  | .ok signature =>
    (settings.storeFor options).getOrMake signature (fun _ ↦
      let loading := Document.load fs settings.sigil sources
      (loading.opened, loading.artifact generator options signature)) fs

/-- Compiles documents. Options that name no usable generator are refused first, then documents that
cannot be found. -/
def compile (settings : Settings) (options : Options) (identifiers : List String)
    (fs : FileSystem) : Compilation :=
  match Code.Generator.build options.mode options.segment settings.container with
  | .error error => { opened := [], result := .error (.generation error), files := fs }
  | .ok generator =>
    match Document.Reference.resolveAll fs settings.root identifiers with
    | .error fault => { opened := [], result := .error (.document fault), files := fs }
    | .ok sources => settings.compileSources options generator sources fs

end Settings

end LayeredConfig
