import LayeredConfig.Proofs.Compilation.Stored
import LayeredConfig.Proofs.FileSystem.Removal

/-!
# Clearing a store

An artifact is known by the extension of its file and by how its stem begins. An extension without a
dot is what follows the last dot of a file name, so that every artifact of the store is known again;
clearing leaves none, and whatever is compiled next has its documents parsed.

Neither condition can be dropped. Of an extension with a dot only the last part is seen, and an
empty path, which stands for the working directory when an artifact is written, names no directory
to be listed.
-/

namespace LayeredConfig.Store

open Document (Reference)

variable {store : Store} {fs : FileSystem} {signature : Signature}

/-- A file name is the name of the signature and the extension, with a dot between. -/
theorem toList_fileName (store : Store) (signature : Signature) :
    (store.fileName signature).toList
      = signature.name.toList ++ '.' :: store.extension.toList := by
  simp [fileName]

private theorem splitExtension_fileName (hdot : '.' ∉ store.extension.toList)
    (signature : Signature) :
    Path.splitExtension (store.fileName signature).toList
      = (signature.name.toList, some store.extension.toList) := by
  rw [toList_fileName]
  refine Path.splitExtension_append ?_ hdot
  simp [Signature.name, Signature.lead]

private theorem dropPrefix?_lead_name (signature : Signature) :
    Characters.dropPrefix? Signature.lead.toList signature.name.toList
      = some signature.digits := by
  rw [Characters.dropPrefix?_eq_some_iff, Signature.name, String.toList_ofList]

private theorem isArtifact_fileName (hdot : '.' ∉ store.extension.toList)
    (hkept : store.contains fs signature = true) :
    store.isArtifact fs (store.fileName signature) = true := by
  have hfile : fs.isFile (store.directory.child (store.fileName signature)) = true := hkept
  simp [isArtifact, hfile, Path.extensionOf, Path.stemOf, splitExtension_fileName hdot,
    dropPrefix?_lead_name]

/-- Clearing that succeeds finds no directory, or removes the artifacts that are listed in it. -/
theorem clear_cases {removed : Nat} (h : (store.clear fs).1 = .ok removed) :
    (fs.names store.directory = .error .missing ∧ (store.clear fs).2 = fs) ∨
      ∃ names, fs.names store.directory = .ok names ∧
        removed = (names.filter (store.isArtifact fs)).length ∧
        fs.removeFiles ((names.filter (store.isArtifact fs)).map store.directory.child)
          = (.ok (), (store.clear fs).2) := by
  rw [clear] at h ⊢
  split at h
  · next hnames => exact .inl ⟨hnames, rfl⟩
  · cases h
  · next names hnames =>
    refine .inr ⟨names, hnames, ?_⟩
    simp only at h ⊢
    split at h
    · cases h
    · next rest hremoved =>
      simp only [hremoved]
      exact ⟨(Except.ok.inj h).symm, trivial⟩

private theorem contains_of_clear (hextension : Settings.isPlainExtension store.extension = true)
    (hdot : '.' ∉ store.extension.toList) (hdirectory : store.directory.text ≠ "") {removed : Nat}
    (h : (store.clear fs).1 = .ok removed) (signature : Signature) :
    store.contains (store.clear fs).2 signature = false := by
  have hname := store.isPlainName_fileName hextension signature
  rw [Bool.eq_false_iff]
  intro hkept
  rcases clear_cases h with ⟨hmissing, hsame⟩ | ⟨names, hnames, -, hremoved⟩
  · rw [hsame] at hkept
    obtain ⟨names, hnames, -⟩ := FileSystem.exists_names_of_isFile_child hname hdirectory hkept
    rw [hmissing] at hnames
    cases hnames
  · -- what is left was there before, so it was listed and removed
    have hfewer := FileSystem.filesRemoved_removeFiles fs
      ((names.filter (store.isArtifact fs)).map store.directory.child)
    rw [hremoved] at hfewer
    have hbefore := hfewer.isFile hkept
    obtain ⟨list, hlist, hmem⟩ :=
      FileSystem.exists_names_of_isFile_child hname hdirectory hbefore
    obtain rfl := Except.ok.inj (hnames.symm.trans hlist)
    have hartifact : store.artifactPath signature
        ∈ (names.filter (store.isArtifact fs)).map store.directory.child :=
      List.mem_map_of_mem (List.mem_filter.mpr ⟨hmem, isArtifact_fileName hdot hbefore⟩)
    rw [contains, FileSystem.isFile_removeFiles hremoved hartifact] at hkept
    cases hkept

private theorem load_of_not_contains (h : store.contains fs signature = false) :
    store.load fs signature = .error (.unreadable (store.artifactPath signature)) := by
  rw [load, FileSystem.readText]
  cases hr : fs.readBytes (store.artifactPath signature) with
  | error trouble => rfl
  | ok bytes =>
    have hkept : store.contains fs signature = true := FileSystem.isFile_of_find
      (FileSystem.readBytes_iff_find.mp hr)
    rw [h] at hkept
    cases hkept

/-- **Clearing empties a store**, whatever was done to it before: no artifact is there and none can
be read. Documents that are compiled next are opened to be parsed, all of them or those up to the
first that cannot be parsed. -/
theorem cleared_of_clear (store : Store)
    (hextension : Settings.isPlainExtension store.extension = true)
    (hdot : '.' ∉ store.extension.toList) (hdirectory : store.directory.text ≠ "")
    {fs : FileSystem} {removed : Nat} (h : (store.clear fs).1 = .ok removed) :
    (∀ signature, store.contains (store.clear fs).2 signature = false) ∧
    (∀ signature, store.load (store.clear fs).2 signature
      = .error (.unreadable (store.artifactPath signature))) ∧
    ∀ (settings : Settings) options identifiers generator sources signature,
      settings.storeFor options = store →
        settings.Signed options identifiers (store.clear fs).2 generator sources signature →
          (settings.compile options identifiers (store.clear fs).2).opened
              = sources.map Reference.path ∨
            ∃ before path fault,
              FirstWith (Document.Faulty (store.clear fs).2 settings.sigil)
                  (sources.map Reference.path) before path ∧
                settings.compile options identifiers (store.clear fs).2
                  = ⟨before ++ [path], .error (.document fault), (store.clear fs).2⟩ := by
  have hgone := contains_of_clear hextension hdot hdirectory h
  refine ⟨hgone, fun signature ↦ load_of_not_contains (hgone signature), ?_⟩
  intro settings options identifiers generator sources signature hstore hsigned
  have habsent : (settings.storeFor options).contains (store.clear fs).2 signature = false := by
    rw [hstore]
    exact hgone signature
  have hmissed : settings.Missed options identifiers (store.clear fs).2 generator sources
      signature := { hsigned with absent := habsent }
  exact hmissed.opened_compile

/-- A signature whose digits are all zero. -/
def zeroSignature : Signature := ⟨List.replicate 64 '0', by decide, by decide⟩

/-- One document, and an artifact that was written into a store. -/
def writtenInto (store : Store) : FileSystem :=
  (store.write ⟨zeroSignature, "$x = 1;", []⟩ Settings.oneDocument).2

/-- A written artifact is cleared, and the document is parsed when it is compiled next. -/
theorem cleared_of_clear_writtenInto :
    contains ⟨⟨"cache"⟩, "php"⟩ (writtenInto ⟨⟨"cache"⟩, "php"⟩) zeroSignature = true ∧
      contains ⟨⟨"cache"⟩, "php"⟩ (clear ⟨⟨"cache"⟩, "php"⟩ (writtenInto ⟨⟨"cache"⟩, "php"⟩)).2
        zeroSignature = false ∧
      (Settings.compile {} {} ["app"]
        (clear ⟨⟨"cache"⟩, "php"⟩ (writtenInto ⟨⟨"cache"⟩, "php"⟩)).2).opened
          = [⟨"./app.yaml"⟩] := by
  have hcount : (clear ⟨⟨"cache"⟩, "php"⟩ (writtenInto ⟨⟨"cache"⟩, "php"⟩)).1 = .ok 1 := by
    decide +kernel
  obtain ⟨hgone, -, hnext⟩ := cleared_of_clear ⟨⟨"cache"⟩, "php"⟩ (by decide) (by decide)
    (by decide) hcount
  have hsigned : Settings.Signed {} {} ["app"]
      (clear ⟨⟨"cache"⟩, "php"⟩ (writtenInto ⟨⟨"cache"⟩, "php"⟩)).2 (.structured "$config")
      [⟨"app.yaml", ⟨"."⟩⟩] (.ofPaths [⟨"./app.yaml"⟩]) :=
    { built := rfl
      resolved := Reference.resolveAll_eq_ok_iff.mp (by decide +kernel)
      signing := rfl }
  refine ⟨by decide +kernel, hgone zeroSignature, ?_⟩
  rcases hnext {} {} ["app"] _ _ _ rfl hsigned with hopened | ⟨before, path, fault, hfirst, -⟩
  · exact hopened
  · -- the document can be parsed
    have hread : Document.read (clear ⟨⟨"cache"⟩, "php"⟩ (writtenInto ⟨⟨"cache"⟩, "php"⟩)).2
        Text.defaultSigil ⟨"./app.yaml"⟩ = .ok [(.quoted "a", .scalar (.integer 1))] := by
      decide +kernel
    rcases FirstWith.cons_iff.mp hfirst with ⟨⟨fault, hfault⟩, -⟩ | ⟨-, _, -, hrest⟩
    · exact absurd (hread.symm.trans hfault) nofun
    · exact absurd hrest FirstWith.not_nil

/-- Artifacts outlast a clearing that succeeds, where the extension has a dot and where the path of
the directory is empty. -/
theorem contains_of_clear_overlooked :
    Settings.isPlainExtension "inc.php" = true ∧
      (clear ⟨⟨"cache"⟩, "inc.php"⟩ (writtenInto ⟨⟨"cache"⟩, "inc.php"⟩)).1 = .ok 0 ∧
      contains ⟨⟨"cache"⟩, "inc.php"⟩
        (clear ⟨⟨"cache"⟩, "inc.php"⟩ (writtenInto ⟨⟨"cache"⟩, "inc.php"⟩)).2 zeroSignature
          = true ∧
      (clear ⟨⟨""⟩, "php"⟩ (writtenInto ⟨⟨""⟩, "php"⟩)).1 = .ok 0 ∧
      contains ⟨⟨""⟩, "php"⟩ (clear ⟨⟨""⟩, "php"⟩ (writtenInto ⟨⟨""⟩, "php"⟩)).2 zeroSignature
        = true := by
  decide +kernel

end LayeredConfig.Store
