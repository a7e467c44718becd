import LayeredConfig.Proofs.FileSystem.SlashFree
import LayeredConfig.Proofs.Store.Clearing

/-!
# Files that a clearing takes away

Clearing takes away regular files that lie in the directory of the store, as many as it tells, and
nothing else; clearing again finds none. What it takes has the extension of the store and a stem
that begins as the name of a signature does. Where the stem is such a name, the file is an artifact.

The rest of the stem is not looked at, so that a file which no signature stands for goes with the
artifacts.
-/

namespace LayeredConfig

/-- A file name with an extension is its stem, a dot and the extension. -/
theorem Path.eq_append_of_splitExtension {name stem extension : List Char}
    (h : splitExtension name = (stem, some extension)) : name = stem ++ '.' :: extension := by
  have hreverse : name.reverse.takeWhile (· != '.') ++ name.reverse.dropWhile (· != '.')
      = name.reverse :=
    List.takeWhile_append_dropWhile
  rw [splitExtension] at h
  split at h
  · cases h
  · next hstem =>
    obtain ⟨rfl, hextension⟩ := Prod.mk.inj h
    obtain rfl := Option.some.inj hextension
    cases hdrop : name.reverse.dropWhile (· != '.') with
    | nil =>
      rw [hdrop] at hstem
      exact absurd rfl hstem
    | cons c before =>
      have hne : name.reverse.dropWhile (· != '.') ≠ [] := by simp [hdrop]
      have hc : c = '.' := by
        have hhead := List.head_dropWhile_not _ hne
        simpa [hdrop] using hhead
      rw [hdrop, hc] at hreverse
      calc
        name
        _ = (name.reverse.takeWhile (· != '.') ++ '.' :: before).reverse := by
          rw [hreverse, List.reverse_reverse]
        _ = _ := by simp

/-- A name that is read as a signature is the name of that signature. -/
theorem Signature.name_of_parse? {text : String} {signature : Signature}
    (h : parse? text = some signature) : signature.name = text := by
  rw [parse?] at h
  split at h
  · cases h
  · next digits hdrop =>
    split at h
    · rw [← Option.some.inj h, name, ← Characters.dropPrefix?_eq_some_iff.mp hdrop,
        String.ofList_toList]
    · cases h

namespace Store

open LayeredConfig.Path (IsPlainName)

variable {store : Store} {fs : FileSystem} {name : String}

/-! ### What is recognised -/

/-- What is taken for an artifact is a file whose name has the extension of the store and begins as
signatures do. -/
theorem exists_stem_of_isArtifact (h : store.isArtifact fs name = true) :
    fs.isFile (store.directory.child name) = true ∧
      ∃ stem, name = stem ++ "." ++ store.extension ∧ Signature.lead.toList <+: stem.toList := by
  rw [isArtifact, Bool.and_eq_true, Bool.and_eq_true, beq_iff_eq] at h
  obtain ⟨⟨hfile, hextension⟩, hlead⟩ := h
  refine ⟨hfile, Path.stemOf name, ?_, ?_⟩
  · obtain ⟨extension, hsplit, hextension⟩ := Option.map_eq_some_iff.mp hextension
    have hname := Path.eq_append_of_splitExtension (Prod.ext rfl hsplit)
    rw [← hextension, Path.stemOf]
    apply String.toList_injective
    simp only [String.toList_append, String.toList_ofList, List.append_assoc]
    exact hname
  · obtain ⟨digits, hdigits⟩ := Option.isSome_iff_exists.mp hlead
    exact ⟨digits, (Characters.dropPrefix?_eq_some_iff.mp hdigits).symm⟩

private theorem isPlainName_of_isArtifact (hslash : '/' ∉ name.toList)
    (h : store.isArtifact fs name = true) : IsPlainName name := by
  obtain ⟨-, stem, hname, digits, hstem⟩ := exists_stem_of_isArtifact h
  have hhead : name.toList.head? = some 'c' := by
    rw [hname, String.toList_append, String.toList_append, ← hstem]
    rfl
  refine ⟨hslash, ?_, ?_, ?_⟩
  all_goals
    rintro rfl
    cases hhead

private theorem locate_of_isArtifact {place : Location} (hslash : '/' ∉ name.toList)
    (hplace : fs.locate store.directory = .ok place) (h : store.isArtifact fs name = true) :
    fs.locate (store.directory.child name) = .ok (name :: place) := by
  have hname := isPlainName_of_isArtifact hslash h
  have hdirectory : store.directory.text ≠ "" := by
    intro hempty
    rw [FileSystem.locate_eq_ok_iff, FileSystem.unusable?, if_pos hempty] at hplace
    cases hplace.1
  obtain ⟨inner, file, hl, -⟩ := FileSystem.isFile_iff.mp (exists_stem_of_isArtifact h).1
  obtain ⟨-, -, found, hfound, -, rfl⟩ := (FileSystem.locate_child_iff hname).mp hl
  rw [FileSystem.locateDirectory, if_neg hdirectory] at hfound
  obtain rfl : place = found := Except.ok.inj (hplace.symm.trans hfound)
  exact hl

/-- A place in the directory of the store whose name has the extension of the store and a stem that
begins as the names of signatures do. If the stem is the name of a signature, the artifact is
there. -/
structure Recognised (store : Store) (fs : FileSystem) (place directory : Location)
    (stem : String) : Prop where
  located : fs.locate store.directory = .ok directory
  named : place = (stem ++ "." ++ store.extension) :: directory
  lead : Signature.lead.toList <+: stem.toList
  artifact : ∀ signature, Signature.parse? stem = some signature →
    place = store.fileName signature :: directory ∧ store.contains fs signature = true

private theorem recognised_of_isArtifact {directory : Location}
    (hlocated : fs.locate store.directory = .ok directory)
    (h : store.isArtifact fs name = true) :
    ∃ stem, store.Recognised fs (name :: directory) directory stem := by
  obtain ⟨hfile, stem, rfl, hlead⟩ := exists_stem_of_isArtifact h
  refine ⟨stem, hlocated, rfl, hlead, fun signature hsignature ↦ ?_⟩
  have hname : store.fileName signature = stem ++ "." ++ store.extension := by
    rw [fileName, Signature.name_of_parse? hsignature]
  rw [contains, artifactPath, hname]
  exact ⟨rfl, hfile⟩

/-! ### One clearing -/

/-- The names in a directory that are taken for those of artifacts. -/
def artifactNames (store : Store) (fs : FileSystem) (directory : Location) : List String :=
  (fs.childNames directory).filter (store.isArtifact fs)

private theorem not_mem_of_mem_artifactNames {directory : Location} (hslash : fs.SlashFree)
    (h : name ∈ store.artifactNames fs directory) :
    '/' ∉ name.toList ∧ store.isArtifact fs name = true := by
  obtain ⟨hname, hartifact⟩ := List.mem_filter.mp h
  obtain ⟨node, hnode⟩ := Option.isSome_iff_exists.mp (FileSystem.mem_childNames_iff.mp hname)
  exact ⟨hslash.of_nodeAt hnode, hartifact⟩

private theorem removeFiles_of_clear {directory : Location} {removed : Nat}
    (hlocated : fs.locate store.directory = .ok directory)
    (hdirectory : fs.nodeAt directory = some .directory) (h : (store.clear fs).1 = .ok removed) :
    removed = (store.artifactNames fs directory).length ∧
      fs.removeFiles ((store.artifactNames fs directory).map store.directory.child)
        = (.ok (), (store.clear fs).2) := by
  have hlisted := FileSystem.names_eq_ok_iff.mpr ⟨directory, hlocated, hdirectory, rfl⟩
  rcases clear_cases h with ⟨hmissing, -⟩ | ⟨names, hnames, hremoved⟩
  · rw [hmissing] at hlisted
    cases hlisted
  · obtain rfl := Except.ok.inj (hlisted.symm.trans hnames)
    exact hremoved

private theorem clear_of_artifactNames_eq_nil {directory : Location}
    (hlocated : fs.locate store.directory = .ok directory)
    (hdirectory : fs.nodeAt directory = some .directory)
    (hnone : store.artifactNames fs directory = []) : store.clear fs = (.ok 0, fs) := by
  rw [artifactNames] at hnone
  rw [clear, FileSystem.names_eq_ok_iff.mpr ⟨directory, hlocated, hdirectory, rfl⟩]
  simp only [hnone]
  rfl

private theorem artifactNames_of_removeFiles {directory : Location} {after : FileSystem}
    (h : fs.removeFiles ((store.artifactNames fs directory).map store.directory.child)
      = (.ok (), after)) : store.artifactNames after directory = [] := by
  have hfewer := FileSystem.filesRemoved_removeFiles fs
    ((store.artifactNames fs directory).map store.directory.child)
  rw [h] at hfewer
  refine List.filter_eq_nil_iff.mpr fun name hname hartifact ↦ ?_
  have hfile := (exists_stem_of_isArtifact hartifact).1
  have hbefore : store.isArtifact fs name = true := by
    rw [isArtifact, hfile] at hartifact
    rw [isArtifact, hfewer.isFile hfile]
    exact hartifact
  have hlisted : name ∈ fs.childNames directory := by
    obtain ⟨node, hnode⟩ := Option.isSome_iff_exists.mp (FileSystem.mem_childNames_iff.mp hname)
    rw [FileSystem.mem_childNames_iff, hfewer.nodeAt hnode]
    rfl
  have hmem : store.directory.child name
      ∈ (store.artifactNames fs directory).map store.directory.child :=
    List.mem_map_of_mem (List.mem_filter.mpr ⟨hlisted, hbefore⟩)
  rw [FileSystem.isFile_removeFiles h hmem] at hfile
  cases hfile

/-- **Clearing takes away the files that it counts and nothing else**, where names have no slashes.
They lie in the directory of the store and are recognised by their names, and none is left to be
cleared again. -/
theorem filesGone_of_clear (store : Store) {fs : FileSystem} (hslash : fs.SlashFree)
    {removed : Nat} (h : (store.clear fs).1 = .ok removed) :
    ∃ gone, gone.length = removed ∧ fs.FilesGone (store.clear fs).2 gone ∧
      (∀ place ∈ gone, ∃ directory stem, store.Recognised fs place directory stem) ∧
      store.clear (store.clear fs).2 = (.ok 0, (store.clear fs).2) := by
  rcases clear_cases h with ⟨hmissing, -⟩ | ⟨names, hnames, -⟩
  · have hclear : store.clear fs = (.ok 0, fs) := by rw [clear, hmissing]
    rw [hclear] at h ⊢
    exact ⟨[], Except.ok.inj h, .nil fs, fun _ hplace ↦ absurd hplace List.not_mem_nil, hclear⟩
  · obtain ⟨directory, hlocated, hdirectory, -⟩ := FileSystem.names_eq_ok_iff.mp hnames
    obtain ⟨hcount, hremoved⟩ := removeFiles_of_clear hlocated hdirectory h
    have hfewer := FileSystem.filesRemoved_removeFiles fs
      ((store.artifactNames fs directory).map store.directory.child)
    rw [hremoved] at hfewer
    refine ⟨(store.artifactNames fs directory).map (· :: directory), ?_, ?_, ?_, ?_⟩
    · rw [List.length_map, hcount]
    · refine FileSystem.filesGone_removeFiles (fun name hmem ↦ ?_) hremoved
      obtain ⟨hname, hartifact⟩ := not_mem_of_mem_artifactNames hslash hmem
      exact locate_of_isArtifact hname hlocated hartifact
    · intro place hplace
      obtain ⟨name, hmem, rfl⟩ := List.mem_map.mp hplace
      obtain ⟨-, hartifact⟩ := not_mem_of_mem_artifactNames hslash hmem
      exact ⟨directory, recognised_of_isArtifact hlocated hartifact⟩
    · exact clear_of_artifactNames_eq_nil (hfewer.locate_iff.mpr hlocated)
        ((hfewer.directories directory).mpr hdirectory) (artifactNames_of_removeFiles hremoved)

/-- An artifact, notes and a directory whose names begin like it, and another file, all in one
directory; beside it a file that is named like the artifact. -/
def mixedDirectory : FileSystem :=
  { nodes := [([fileName ⟨⟨"cache"⟩, "php"⟩ zeroSignature, "cache"], .file "$x = 1;".toUTF8),
      (["config.notes.php", "cache"], .file "keep\n".toUTF8),
      (["keep.php", "cache"], .file "".toUTF8), (["config.d.php", "cache"], .directory),
      ([fileName ⟨⟨"cache"⟩, "php"⟩ zeroSignature], .file "".toUTF8), (["cache"], .directory)]
    workingDirectory := []
    distinct := by decide
    enclosed := by simp }

/-- The artifact and the notes are taken away, and nothing is left to be cleared. -/
theorem filesGone_of_clear_mixedDirectory :
    ∃ gone, gone.length = 2 ∧
      mixedDirectory.FilesGone (clear ⟨⟨"cache"⟩, "php"⟩ mixedDirectory).2 gone ∧
      clear ⟨⟨"cache"⟩, "php"⟩ (clear ⟨⟨"cache"⟩, "php"⟩ mixedDirectory).2
        = (.ok 0, (clear ⟨⟨"cache"⟩, "php"⟩ mixedDirectory).2) := by
  have hcount : (clear ⟨⟨"cache"⟩, "php"⟩ mixedDirectory).1 = .ok 2 := by decide +kernel
  have hslash : mixedDirectory.SlashFree := by
    unfold FileSystem.SlashFree
    decide +kernel
  obtain ⟨gone, hlength, hgone, -, hagain⟩ := filesGone_of_clear _ hslash hcount
  exact ⟨gone, hlength, hgone, hagain⟩

/-- A file in the directory of a store that is named almost like an artifact. -/
def unsignedNotes : FileSystem :=
  { nodes := [(["config.notes.php", "cache"], .file "keep\n".toUTF8), (["cache"], .directory)]
    workingDirectory := []
    distinct := by decide
    enclosed := by simp }

/-- A file that no signature stands for is taken away for an artifact. -/
theorem removed_by_clear_unsignedNotes :
    (clear ⟨⟨"cache"⟩, "php"⟩ unsignedNotes).1 = .ok 1 ∧
      unsignedNotes.nodeAt ["config.notes.php", "cache"] = some (.file "keep\n".toUTF8) ∧
      (clear ⟨⟨"cache"⟩, "php"⟩ unsignedNotes).2.nodeAt ["config.notes.php", "cache"] = none ∧
      Signature.parse? "config.notes" = none ∧
      ∀ signature, fileName ⟨⟨"cache"⟩, "php"⟩ signature ≠ "config.notes.php" := by
  refine ⟨by decide +kernel, by decide +kernel, by decide +kernel, by decide +kernel, ?_⟩
  intro signature h
  have hlength : (fileName ⟨⟨"cache"⟩, "php"⟩ signature).toList.length = 16 := by
    rw [h]
    decide
  rw [toList_fileName, Signature.name, String.toList_ofList, List.length_append,
    List.length_append, signature.length_digits] at hlength
  omega

end Store

end LayeredConfig
