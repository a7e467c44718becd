import LayeredConfig.Proofs.Code.Unsupported
import LayeredConfig.Proofs.Compilation.Request
import LayeredConfig.Proofs.Document.Merging
import LayeredConfig.Proofs.Document.Resolution
import LayeredConfig.Proofs.Store.Writing

/-!
# The stages of a compilation

A request gets its generator and its documents, is signed, is looked up in the store, has its
documents parsed and filtered, and has its artifact generated and written. Each structure says that
a request has come through one more stage; `FirstFault` says at which stage it is turned down, and
how.
-/

namespace LayeredConfig

open Document (Reference)

namespace Settings

/-- A request has a generator, and each of its identifiers stands for a document. -/
structure Found (settings : Settings) (options : Options) (identifiers : List String)
    (fs : FileSystem) (generator : Code.Generator) (sources : List Reference) : Prop where
  built : Code.Generator.build options.mode options.segment settings.container = .ok generator
  resolved : List.Forall₂ (Reference.Resolves fs settings.root) identifiers sources

/-- The documents of a request have been found and have a signature. -/
structure Signed (settings : Settings) (options : Options) (identifiers : List String)
    (fs : FileSystem) (generator : Code.Generator) (sources : List Reference)
    (signature : Signature) : Prop
    extends Found settings options identifiers fs generator sources where
  signing : settings.basis.sign fs (sources.map Reference.path) = .ok signature

/-- A request has been signed, and its artifact is not in the store. -/
structure Missed (settings : Settings) (options : Options) (identifiers : List String)
    (fs : FileSystem) (generator : Code.Generator) (sources : List Reference)
    (signature : Signature) : Prop
    extends Signed settings options identifiers fs generator sources signature where
  absent : (settings.storeFor options).contains fs signature = false

/-- Documents have been parsed, each to its tree. -/
def Parsed (settings : Settings) (fs : FileSystem) (sources : List Reference)
    (trees : List Tree) : Prop :=
  List.Forall₂ (fun path tree ↦ Document.read fs settings.sigil path = .ok tree)
    (sources.map Reference.path) trees

/-- The stage at which a request is turned down: the failure, and the documents that were opened to
parse them until then. The store is written last. -/
inductive FirstFault (settings : Settings) (options : Options) (identifiers : List String)
    (fs : FileSystem) : List Path → Failure → Prop
  /-- Flat code is asked for without a segment. -/
  | segmentRequired (lacks : options.LacksSegment) :
      FirstFault settings options identifiers fs [] (.generation .segmentRequired)
  /-- The first identifier that stands for no document. -/
  | notFound {before : List String} {identifier : String} (segmented : ¬ options.LacksSegment)
      (first : FirstWith (Reference.Unresolvable fs settings.root) identifiers before identifier) :
      FirstFault settings options identifiers fs []
        (.document (.notFound (Reference.wantedPath settings.root identifier)))
  /-- The first document whose bytes cannot be read, when signatures are made from them. -/
  | unsignable {generator : Code.Generator} {sources : List Reference} {before : List Path}
      {path : Path} (found : Found settings options identifiers fs generator sources)
      (basis : settings.basis = .content)
      (first : FirstWith (Unreadable fs) (sources.map Reference.path) before path) :
      FirstFault settings options identifiers fs [] (.unsignable path)
  /-- The first document that cannot be parsed. It is the last one opened. -/
  | faulty {generator : Code.Generator} {sources : List Reference} {signature : Signature}
      {before : List Path} {path : Path} {fault : Document.Fault}
      (missed : Missed settings options identifiers fs generator sources signature)
      (first : FirstWith (Document.Faulty fs settings.sigil) (sources.map Reference.path) before
        path)
      (fails : Document.read fs settings.sigil path = .error fault) :
      FirstFault settings options identifiers fs (before ++ [path]) (.document fault)
  /-- Nothing is left of the merged documents. -/
  | empty {generator : Code.Generator} {sources : List Reference} {signature : Signature}
      {trees : List Tree} {cause : EmptyCause}
      (missed : Missed settings options identifiers fs generator sources signature)
      (parsed : Parsed settings fs sources trees)
      (fails : (Tree.mergeAll [] trees).applyFilters options.ignoredKeys options.keepMainKey
        = .error cause) :
      FirstFault settings options identifiers fs (sources.map Reference.path) (.empty cause)
  /-- What is left holds a number that is not finite. -/
  | unsupported {generator : Code.Generator} {sources : List Reference} {signature : Signature}
      {trees : List Tree} {tree : Tree} {target : String} {x : Binary64}
      (missed : Missed settings options identifiers fs generator sources signature)
      (parsed : Parsed settings fs sources trees)
      (filtered : (Tree.mergeAll [] trees).applyFilters options.ignoredKeys options.keepMainKey
        = .ok tree)
      (fails : generator.generate tree = .error (.nonFinite target x))
      (nonFinite : x.isFinite = false) :
      FirstFault settings options identifiers fs (sources.map Reference.path)
        (.generation (.nonFinite target x))
  /-- The artifact cannot be written. -/
  | unwritable {generator : Code.Generator} {sources : List Reference} {signature : Signature}
      {trees : List Tree} {tree : Tree} {code : String} {files : FileSystem}
      (missed : Missed settings options identifiers fs generator sources signature)
      (parsed : Parsed settings fs sources trees)
      (filtered : (Tree.mergeAll [] trees).applyFilters options.ignoredKeys options.keepMainKey
        = .ok tree)
      (generated : generator.generate tree = .ok code)
      (fails : (settings.storeFor options).write ⟨signature, code, sources⟩ fs
        = (.error (.unwritable ((settings.storeFor options).artifactPath signature)), files)) :
      FirstFault settings options identifiers fs (sources.map Reference.path)
        (.unwritable ((settings.storeFor options).artifactPath signature))

end Settings

end LayeredConfig
