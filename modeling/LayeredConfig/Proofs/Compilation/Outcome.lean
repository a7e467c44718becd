import LayeredConfig.Proofs.Compilation.Stages

/-!
# What comes of a compilation

A compilation goes from stage to stage. It is turned down at the first stage that fails, gives the
signature of an artifact that is kept already, or writes the artifact.
-/

namespace LayeredConfig.Settings

open Document (Reference)

variable {settings : Settings} {options : Options} {identifiers : List String} {fs : FileSystem}
  {generator : Code.Generator} {sources : List Reference} {signature : Signature}
  {trees : List Tree} {tree : Tree}

/-! ### Stage by stage -/

/-- Flat code without a segment is refused before anything else. -/
theorem compile_of_lacksSegment (lacks : options.LacksSegment) :
    settings.compile options identifiers fs
      = ⟨[], .error (.generation .segmentRequired), fs⟩ := by
  rw [compile, Code.Generator.build_eq_error_iff.mpr ⟨lacks, rfl⟩]

/-- The first identifier that stands for no document is reported. -/
theorem compile_of_unresolvable {before : List String} {identifier : String}
    (segmented : ¬ options.LacksSegment)
    (first : FirstWith (Reference.Unresolvable fs settings.root) identifiers before identifier) :
    settings.compile options identifiers fs
      = ⟨[], .error (.document (.notFound (Reference.wantedPath settings.root identifier))),
          fs⟩ := by
  obtain ⟨generator, hb⟩ := Code.Generator.exists_build_eq_ok settings.container segmented
  rw [compile, hb]
  simp only [Reference.resolveAll_eq_error_iff.mpr ⟨before, identifier, first, rfl⟩]

/-- What follows depends on the documents that were found. -/
theorem Found.compile_eq (found : Found settings options identifiers fs generator sources) :
    settings.compile options identifiers fs
      = settings.compileSources options generator sources fs := by
  rw [compile, found.built]
  simp only [Reference.resolveAll_eq_ok_iff.mpr found.resolved]

/-- The first document that cannot be read is reported when signatures need it. -/
theorem Found.compile_of_unreadable {before : List Path} {path : Path}
    (found : Found settings options identifiers fs generator sources)
    (basis : settings.basis = .content)
    (first : FirstWith (Unreadable fs) (sources.map Reference.path) before path) :
    settings.compile options identifiers fs = ⟨[], .error (.unsignable path), fs⟩ := by
  rw [found.compile_eq, compileSources,
    SignatureBasis.sign_eq_error_iff.mpr ⟨basis, before, path, first, rfl⟩]

/-- An artifact that is kept is not made again. -/
theorem Signed.compile_of_contains
    (signed : Signed settings options identifiers fs generator sources signature)
    (kept : (settings.storeFor options).contains fs signature = true) :
    settings.compile options identifiers fs = ⟨[], .ok signature, fs⟩ := by
  rw [signed.compile_eq, compileSources, signed.signing]
  simp only [Store.getOrMake, kept, if_true]

/-- The first document that cannot be parsed is reported. -/
theorem Missed.compile_of_faulty {before : List Path} {path : Path} {fault : Document.Fault}
    (missed : Missed settings options identifiers fs generator sources signature)
    (first : FirstWith (Document.Faulty fs settings.sigil) (sources.map Reference.path) before path)
    (fails : Document.read fs settings.sigil path = .error fault) :
    settings.compile options identifiers fs
      = ⟨before ++ [path], .error (.document fault), fs⟩ := by
  have hload := Document.load_eq_error_iff.mpr ⟨before, path, first, fails, rfl⟩
  rw [missed.compile_eq, compileSources, missed.signing]
  simp only [Store.getOrMake, missed.absent, Bool.false_eq_true, if_false, hload,
    Document.Loading.artifact]

/-- Parsed documents are merged in order. -/
theorem Parsed.load_eq (parsed : Parsed settings fs sources trees) :
    Document.load fs settings.sigil sources
      = ⟨sources.map Reference.path, .ok ⟨Tree.mergeAll [] trees, sources⟩⟩ :=
  Document.load_eq_ok_iff.mpr ⟨rfl, trees, parsed, rfl⟩

/-- The artifact of parsed documents is made and, if that can be done, written. -/
theorem Missed.compile_of_parsed
    (missed : Missed settings options identifiers fs generator sources signature)
    (parsed : Parsed settings fs sources trees) :
    settings.compile options identifiers fs
      = match Document.Merged.artifact ⟨Tree.mergeAll [] trees, sources⟩ generator options
            signature with
        | .error failure => ⟨sources.map Reference.path, .error failure, fs⟩
        | .ok artifact =>
          ⟨sources.map Reference.path,
            ((settings.storeFor options).write artifact fs).1.map fun _ ↦ artifact.signature,
            ((settings.storeFor options).write artifact fs).2⟩ := by
  rw [missed.compile_eq, compileSources, missed.signing]
  simp only [Store.getOrMake, missed.absent, Bool.false_eq_true, if_false, parsed.load_eq,
    Document.Loading.artifact]
  cases Document.Merged.artifact ⟨Tree.mergeAll [] trees, sources⟩ generator options signature <;>
    rfl

/-- A request whose artifact is not kept has all its documents opened, or those up to the first one
that cannot be parsed, which is reported. -/
theorem Missed.opened_compile
    (missed : Missed settings options identifiers fs generator sources signature) :
    (settings.compile options identifiers fs).opened = sources.map Reference.path ∨
      ∃ before path fault,
        FirstWith (Document.Faulty fs settings.sigil) (sources.map Reference.path) before path ∧
          settings.compile options identifiers fs
            = ⟨before ++ [path], .error (.document fault), fs⟩ := by
  cases hload : Document.load fs settings.sigil sources with
  | mk opened result =>
    cases result with
    | error fault =>
      obtain ⟨before, path, first, fails, -⟩ := Document.load_eq_error_iff.mp hload
      exact .inr ⟨before, path, fault, first, missed.compile_of_faulty first fails⟩
    | ok merged =>
      obtain ⟨-, trees, parsed, -⟩ := Document.load_eq_ok_iff.mp hload
      left
      rw [missed.compile_of_parsed parsed]
      split <;> rfl

/-- A configuration of which nothing is left is reported. -/
theorem Missed.compile_of_empty {cause : EmptyCause}
    (missed : Missed settings options identifiers fs generator sources signature)
    (parsed : Parsed settings fs sources trees)
    (fails : (Tree.mergeAll [] trees).applyFilters options.ignoredKeys options.keepMainKey
      = .error cause) :
    settings.compile options identifiers fs
      = ⟨sources.map Reference.path, .error (.empty cause), fs⟩ := by
  rw [missed.compile_of_parsed parsed, Document.Merged.artifact, fails]

/-- A configuration without code is reported. -/
theorem Missed.compile_of_ungenerated {error : Code.GenerationError}
    (missed : Missed settings options identifiers fs generator sources signature)
    (parsed : Parsed settings fs sources trees)
    (filtered : (Tree.mergeAll [] trees).applyFilters options.ignoredKeys options.keepMainKey
      = .ok tree)
    (fails : generator.generate tree = .error error) :
    settings.compile options identifiers fs
      = ⟨sources.map Reference.path, .error (.generation error), fs⟩ := by
  rw [missed.compile_of_parsed parsed, Document.Merged.artifact, filtered]
  simp only [fails]

/-- An artifact that could be generated is written. -/
theorem Missed.compile_of_generated {code : String}
    (missed : Missed settings options identifiers fs generator sources signature)
    (parsed : Parsed settings fs sources trees)
    (filtered : (Tree.mergeAll [] trees).applyFilters options.ignoredKeys options.keepMainKey
      = .ok tree)
    (generated : generator.generate tree = .ok code) :
    settings.compile options identifiers fs
      = ⟨sources.map Reference.path,
          ((settings.storeFor options).write ⟨signature, code, sources⟩ fs).1.map
            fun _ ↦ signature,
          ((settings.storeFor options).write ⟨signature, code, sources⟩ fs).2⟩ := by
  rw [missed.compile_of_parsed parsed, Document.Merged.artifact, filtered]
  simp only [generated]

/-! ### All stages together -/

/-- What comes of a compilation. -/
inductive Outcome (settings : Settings) (options : Options) (identifiers : List String)
    (fs : FileSystem) : Compilation → Prop
  /-- It is turned down. Only an artifact that cannot be written leaves directories behind. -/
  | failed {opened : List Path} {failure : Failure} {files : FileSystem}
      (fault : FirstFault settings options identifiers fs opened failure)
      (made : fs.DirectoriesMade files (settings.storeFor options).directory)
      (same : (∀ path, failure ≠ .unwritable path) → files = fs) :
      Outcome settings options identifiers fs ⟨opened, .error failure, files⟩
  /-- The artifact was there. -/
  | kept {generator : Code.Generator} {sources : List Reference} {signature : Signature}
      (signed : Signed settings options identifiers fs generator sources signature)
      (kept : (settings.storeFor options).contains fs signature = true) :
      Outcome settings options identifiers fs ⟨[], .ok signature, fs⟩
  /-- The artifact is written. -/
  | written {generator : Code.Generator} {sources : List Reference} {signature : Signature}
      {trees : List Tree} {tree : Tree} {code : String} {files : FileSystem} {place : Location}
      (missed : Missed settings options identifiers fs generator sources signature)
      (parsed : Parsed settings fs sources trees)
      (filtered : (Tree.mergeAll [] trees).applyFilters options.ignoredKeys options.keepMainKey
        = .ok tree)
      (generated : generator.generate tree = .ok code)
      (added : (settings.storeFor options).Added fs files signature
        (Artifact.text ⟨signature, code, sources⟩) place) :
      Outcome settings options identifiers fs ⟨sources.map Reference.path, .ok signature, files⟩

private theorem Outcome.signed {compilation : Compilation}
    (h : Outcome settings options identifiers fs compilation)
    (hresult : compilation.result = .ok signature) :
    ∃ generator sources, Signed settings options identifiers fs generator sources signature := by
  cases h with
  | failed _ _ _ => cases hresult
  | kept signed _ =>
    cases hresult
    exact ⟨_, _, signed⟩
  | written missed _ _ _ _ =>
    cases hresult
    exact ⟨_, _, missed.toSigned⟩

/-- A failure at a stage before the store is written leaves the files as they are. -/
theorem Outcome.of_unwritten {opened : List Path} {failure : Failure}
    (fault : FirstFault settings options identifiers fs opened failure) :
    Outcome settings options identifiers fs ⟨opened, .error failure, fs⟩ :=
  .failed fault (.refl fs _) fun _ ↦ rfl

private theorem Missed.outcome_of_generated {code : String}
    (missed : Missed settings options identifiers fs generator sources signature)
    (parsed : Parsed settings fs sources trees)
    (filtered : (Tree.mergeAll [] trees).applyFilters options.ignoredKeys options.keepMainKey
      = .ok tree)
    (generated : generator.generate tree = .ok code) :
    Outcome settings options identifiers fs (settings.compile options identifiers fs) := by
  rw [missed.compile_of_generated parsed filtered generated]
  rcases (settings.storeFor options).added_or_made_of_write ⟨signature, code, sources⟩ fs with
    ⟨files, hwrite, hmade⟩ | ⟨files, place, hwrite, hadded⟩
  · rw [hwrite]
    exact .failed (.unwritable missed parsed filtered generated hwrite) hmade
      fun h ↦ absurd rfl (h _)
  · rw [hwrite]
    exact .written missed parsed filtered generated hadded

private theorem Missed.outcome
    (missed : Missed settings options identifiers fs generator sources signature) :
    Outcome settings options identifiers fs (settings.compile options identifiers fs) := by
  cases hload : Document.load fs settings.sigil sources with
  | mk opened result =>
    cases result with
    | error fault =>
      obtain ⟨before, path, first, fails, -⟩ := Document.load_eq_error_iff.mp hload
      rw [missed.compile_of_faulty first fails]
      exact .of_unwritten (.faulty missed first fails)
    | ok merged =>
      obtain ⟨-, trees, parsed, -⟩ := Document.load_eq_ok_iff.mp hload
      cases hfilter :
          (Tree.mergeAll [] trees).applyFilters options.ignoredKeys options.keepMainKey with
      | error cause =>
        rw [missed.compile_of_empty parsed hfilter]
        exact .of_unwritten (.empty missed parsed hfilter)
      | ok tree =>
        cases hgenerate : generator.generate tree with
        | error error =>
          obtain ⟨target, x, rfl, hx⟩ := Code.unsupported_of_generate hgenerate
          rw [missed.compile_of_ungenerated parsed hfilter hgenerate]
          exact .of_unwritten (.unsupported missed parsed hfilter hgenerate hx)
        | ok code => exact missed.outcome_of_generated parsed hfilter hgenerate

/-- A compilation ends at the first stage that fails, with a kept artifact or with a new one. -/
theorem outcome_compile (settings : Settings) (options : Options) (identifiers : List String)
    (fs : FileSystem) :
    Outcome settings options identifiers fs (settings.compile options identifiers fs) := by
  by_cases lacks : options.LacksSegment
  · rw [compile_of_lacksSegment lacks]
    exact .of_unwritten (.segmentRequired lacks)
  obtain ⟨generator, hbuild⟩ := Code.Generator.exists_build_eq_ok settings.container lacks
  cases hfound : Reference.resolveAll fs settings.root identifiers with
  | error fault =>
    obtain ⟨before, identifier, first, rfl⟩ := Reference.resolveAll_eq_error_iff.mp hfound
    rw [compile_of_unresolvable lacks first]
    exact .of_unwritten (.notFound lacks first)
  | ok sources =>
    have found : Found settings options identifiers fs generator sources :=
      ⟨hbuild, Reference.resolveAll_eq_ok_iff.mp hfound⟩
    cases hsign : settings.basis.sign fs (sources.map Reference.path) with
    | error failure =>
      obtain ⟨basis, before, path, first, rfl⟩ := SignatureBasis.sign_eq_error_iff.mp hsign
      rw [found.compile_of_unreadable basis first]
      exact .of_unwritten (.unsignable found basis first)
    | ok signature =>
      have signed : Signed settings options identifiers fs generator sources signature :=
        { found with signing := hsign }
      cases hkept : (settings.storeFor options).contains fs signature with
      | true =>
        rw [signed.compile_of_contains hkept]
        exact .kept signed hkept
      | false => exact Missed.outcome { signed with absent := hkept }

/-- What a compilation returns is what signing its documents gives. -/
theorem sign_of_compile
    (hresolved : List.Forall₂ (Reference.Resolves fs settings.root) identifiers sources)
    (h : (settings.compile options identifiers fs).result = .ok signature) :
    settings.basis.sign fs (sources.map Reference.path) = .ok signature := by
  obtain ⟨generator, found, signed⟩ := (outcome_compile settings options identifiers fs).signed h
  have hsources : found = sources :=
    Except.ok.inj ((Reference.resolveAll_eq_ok_iff.mpr signed.resolved).symm.trans
      (Reference.resolveAll_eq_ok_iff.mpr hresolved))
  rw [← hsources]
  exact signed.signing

end LayeredConfig.Settings
