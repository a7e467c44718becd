import LayeredConfig.Proofs.Compilation.Outcome

/-!
# New artifacts

A compilation that succeeds without a kept artifact writes one. It holds the code of what reading
the same documents gives, after filtering, below a header that names them.
-/

namespace LayeredConfig

open Document (Reference)

/-- The name of a signature is read back. -/
theorem Signature.parse?_name (s : Signature) : parse? s.name = some s := by
  have hdrop : Characters.dropPrefix? lead.toList s.name.toList = some s.digits := by
    rw [Characters.dropPrefix?_eq_some_iff, name, String.toList_ofList]
  simp only [parse?, hdrop, dif_pos (And.intro s.length_digits s.isHex_digits)]

namespace Settings

variable {settings : Settings} {options : Options} {identifiers : List String} {fs : FileSystem}
  {generator : Code.Generator} {sources : List Reference} {signature : Signature}
  {trees : List Tree}

private theorem Found.read_eq (found : Found settings options identifiers fs generator sources)
    (parsed : Parsed settings fs sources trees) :
    settings.read fs identifiers
      = ⟨sources.map Reference.path, .ok ⟨Tree.mergeAll [] trees, sources⟩⟩ := by
  rw [read, Reference.resolveAll_eq_ok_iff.mpr found.resolved]
  exact parsed.load_eq

/-- A compilation has written the artifact of documents: it opened each of them once and in order,
as reading does, and stored the code of what reading gives. -/
structure Compiled (settings : Settings) (options : Options) (identifiers : List String)
    (fs : FileSystem) (signature : Signature) (compilation : Compilation)
    (merged : Document.Merged) (generator : Code.Generator) (tree : Tree) (code : String) :
    Prop where
  reading : settings.read fs identifiers = ⟨merged.provenance, .ok merged⟩
  resolved : List.Forall₂ (Reference.Resolves fs settings.root) identifiers merged.sources
  signing : settings.basis.sign fs merged.provenance = .ok signature
  built : Code.Generator.build options.mode options.segment settings.container = .ok generator
  filtering : merged.tree.applyFilters options.ignoredKeys options.keepMainKey = .ok tree
  generating : generator.generate tree = .ok code
  opened : compilation.opened = merged.provenance
  handle : Signature.parse? signature.name = some signature
  loading : (settings.storeFor options).load compilation.files signature
    = .ok (Code.renderArtifact (merged.provenance.map Path.text) code)
  frame : ∃ place, (settings.storeFor options).Added fs compilation.files signature
    (Code.renderArtifact (merged.provenance.map Path.text) code) place

/-- **A compilation that succeeds and finds no artifact stores exactly what reading, filtering and
generating give.** -/
theorem compiled_of_absent
    (hresult : (settings.compile options identifiers fs).result = .ok signature)
    (habsent : (settings.storeFor options).contains fs signature = false) :
    ∃ merged generator tree code, Compiled settings options identifiers fs signature
      (settings.compile options identifiers fs) merged generator tree code := by
  have houtcome := outcome_compile settings options identifiers fs
  generalize settings.compile options identifiers fs = compilation at hresult houtcome ⊢
  cases houtcome with
  | failed _ _ _ => cases hresult
  | kept signed kept =>
    cases hresult
    rw [kept] at habsent
    cases habsent
  | @written generator sources _ trees tree code files place missed parsed filtered generated
      added =>
    cases hresult
    have htext : Artifact.text ⟨signature, code, sources⟩
        = Code.renderArtifact ((sources.map Reference.path).map Path.text) code := by
      rw [Artifact.text, List.map_map]
      rfl
    rw [htext] at added
    exact ⟨⟨Tree.mergeAll [] trees, sources⟩, generator, tree, code,
      { reading := missed.read_eq parsed
        resolved := missed.resolved
        signing := missed.signing
        built := missed.built
        filtering := filtered
        generating := generated
        opened := rfl
        handle := signature.parse?_name
        loading := added.load
        frame := ⟨place, added⟩ }⟩

/-- One document. -/
def oneDocument : FileSystem :=
  { nodes := [(["app.yaml"], .file "a: 1\n".toUTF8)]
    workingDirectory := []
    distinct := by decide
    enclosed := by simp }

/-- A document that is listed twice is opened twice, and is written below two new directories. -/
theorem compiled_of_absent_listedTwice :
    (compile {} { cacheDirectory := some ⟨"var/cache"⟩ } ["app", "app"] oneDocument).opened
        = [⟨"./app.yaml"⟩, ⟨"./app.yaml"⟩] ∧
      ∃ merged generator tree code, Compiled {} { cacheDirectory := some ⟨"var/cache"⟩ }
        ["app", "app"] oneDocument (.ofPaths [⟨"./app.yaml"⟩, ⟨"./app.yaml"⟩])
        (compile {} { cacheDirectory := some ⟨"var/cache"⟩ } ["app", "app"] oneDocument) merged
        generator tree code := by
  refine ⟨by decide +kernel, compiled_of_absent ?_ ?_⟩
  · show (compile {} { cacheDirectory := some ⟨"var/cache"⟩ } ["app", "app"] oneDocument).result
      = .ok (.ofPaths [⟨"./app.yaml"⟩, ⟨"./app.yaml"⟩])
    decide +kernel
  · show (storeFor {} { cacheDirectory := some ⟨"var/cache"⟩ }).contains oneDocument
      (.ofPaths [⟨"./app.yaml"⟩, ⟨"./app.yaml"⟩]) = false
    decide +kernel

end Settings

end LayeredConfig
