import LayeredConfig.Proofs.FileSystem.Steadiness
import LayeredConfig.Proofs.FileSystem.Writing
import LayeredConfig.Settings
import LayeredConfig.Store

/-!
# Written artifacts

Writing an artifact adds it and the directories that its store was missing, and nothing else; when
that fails, only such directories may be new. An artifact that was written is read back. If its path
is steady and no artifact was there, nothing was replaced.
-/

namespace LayeredConfig.Store

variable {store : Store} {before after : FileSystem} {signature : Signature} {text : String}

/-- With a plain extension, the file name of an artifact holds no separator. -/
theorem not_mem_fileName (store : Store) (h : Settings.isPlainExtension store.extension = true)
    (signature : Signature) {c : Char} (hc : c = '/' ∨ c = '\\') :
    c ∉ (store.fileName signature).toList := by
  have hdigits : c ∉ signature.digits := by
    intro hm
    have hhex := List.all_eq_true.mp signature.isHex_digits c hm
    rcases hc with rfl | rfl <;> exact absurd hhex (by decide)
  have hextension : c ∉ store.extension.toList := by
    intro hm
    simp only [Settings.isPlainExtension, Bool.and_eq_true, Bool.not_eq_true',
      List.any_eq_false] at h
    exact h.2 c hm (by simp [hc])
  have hlead : c ∉ Signature.lead.toList := by
    rcases hc with rfl | rfl <;> decide
  have hdot : c ≠ '.' := by
    rcases hc with rfl | rfl <;> decide
  simp [fileName, Signature.name, hlead, hdigits, hextension, hdot]

/-- The file name of an artifact is a plain name. -/
theorem isPlainName_fileName (store : Store) (h : Settings.isPlainExtension store.extension = true)
    (signature : Signature) : Path.IsPlainName (store.fileName signature) := by
  have hne (other : String) (hother : other.toList.head? ≠ some 'c') :
      store.fileName signature ≠ other := by
    rintro rfl
    simp [fileName, Signature.name, Signature.lead] at hother
  exact ⟨store.not_mem_fileName h signature (.inl rfl), hne "" (by decide), hne "." (by decide),
    hne ".." (by decide)⟩

private theorem write_cases (store : Store) (artifact : Artifact) (fs : FileSystem) :
    store.write artifact fs = (.error (.unwritable (store.artifactPath artifact.signature)),
        fs.createDirectories store.directory) ∨
      ∃ written, (fs.createDirectories store.directory).writeFile
          (store.artifactPath artifact.signature) artifact.text.toUTF8 = .ok written ∧
        store.write artifact fs = (.ok (store.artifactPath artifact.signature), written) := by
  simp only [write]
  split
  · cases ht : (fs.createDirectories store.directory).temporaryPath? store.directory with
    | none => exact .inl rfl
    | some temporary =>
      have hv := FileSystem.isVacant_of_vacantPath? ht
      rcases FileSystem.writeThrough_cases (store.artifactPath artifact.signature)
        artifact.text.toUTF8 hv with ⟨trouble, hw⟩ | ⟨written, hfile, hw⟩
      · left
        simp only [hw]
      · right
        refine ⟨written, hfile, ?_⟩
        simp only [hw]
  · exact .inl rfl

/-- An artifact has been added, with directories on the way of the store that were missing. All else
is as it was. -/
structure Added (store : Store) (before after : FileSystem) (signature : Signature) (text : String)
    (place : Location) : Prop where
  workingDirectory : after.workingDirectory = before.workingDirectory
  located : after.locate (store.artifactPath signature) = .ok place
  writable : before.nodeAt place ≠ some .directory
  stored : after.nodeAt place = some (.file text.toUTF8)
  elsewhere : ∀ other, other ≠ place → after.nodeAt other = before.nodeAt other ∨
    before.nodeAt other = none ∧ after.nodeAt other = some .directory ∧
      ∃ outer, store.directory.Outward outer ∧ after.locate outer = .ok other

private theorem added_of_fileWritten {made : FileSystem} {place : Location}
    (hmade : before.DirectoriesMade made store.directory)
    (hw : made.FileWritten after (store.artifactPath signature) text.toUTF8 place) :
    store.Added before after signature text place where
  workingDirectory := hw.workingDirectory.trans hmade.workingDirectory
  located := hw.locate hw.located
  writable hd := hw.writable (hmade.grows.kept place _ hd)
  stored := hw.stored
  elsewhere := by
    intro other ho
    rw [hw.elsewhere other ho]
    refine (hmade.places other).imp_right ?_
    rintro ⟨hnone, hdir, outer, hout, hl⟩
    exact ⟨hnone, hdir, outer, hout, hw.locate hl⟩

/-- Writing an artifact adds it, or fails and adds directories at most. -/
theorem added_or_made_of_write (store : Store) (artifact : Artifact) (fs : FileSystem) :
    (∃ files, store.write artifact fs
        = (.error (.unwritable (store.artifactPath artifact.signature)), files) ∧
          fs.DirectoriesMade files store.directory) ∨
      ∃ files place, store.write artifact fs
        = (.ok (store.artifactPath artifact.signature), files) ∧
          store.Added fs files artifact.signature artifact.text place := by
  have hmade := FileSystem.directoriesMade_createDirectories fs store.directory
  rcases store.write_cases artifact fs with hw | ⟨written, hfile, hw⟩
  · exact .inl ⟨_, hw, hmade⟩
  · obtain ⟨place, hplace⟩ := FileSystem.fileWritten_of_writeFile hfile
    exact .inr ⟨written, place, hw, added_of_fileWritten hmade hplace⟩

namespace Added

variable {place : Location}

/-- The bytes of an added artifact are those of its text. -/
theorem readBytes (h : store.Added before after signature text place) :
    after.readBytes (store.artifactPath signature) = .ok text.toUTF8 :=
  FileSystem.readBytes_eq_ok_iff.mpr ⟨place, h.located, h.stored⟩

/-- An added artifact is there. -/
theorem contains (h : store.Added before after signature text place) :
    store.contains after signature = true :=
  FileSystem.isFile_iff.mpr ⟨place, _, h.located, h.stored⟩

/-- An added artifact is read back. -/
theorem load (h : store.Added before after signature text place) :
    store.load after signature = .ok text := by
  simp only [Store.load, FileSystem.readText_of_readBytes h.readBytes]
  rfl

/-- Away from the artifact nothing is lost. -/
theorem kept_elsewhere (h : store.Added before after signature text place) {other : Location}
    {node : Node} (hne : other ≠ place) (hn : before.nodeAt other = some node) :
    after.nodeAt other = some node := by
  rcases h.elsewhere other hne with he | ⟨hnone, -⟩
  · rw [he, hn]
  · rw [hnone] at hn
    cases hn

/-- Directories stay. -/
theorem directory (h : store.Added before after signature text place) (other : Location)
    (hd : before.nodeAt other = some .directory) : after.nodeAt other = some .directory := by
  refine h.kept_elsewhere ?_ hd
  rintro rfl
  exact h.writable hd

/-- Any path leads where it led. -/
theorem locate (h : store.Added before after signature text place) {path : Path} {l : Location}
    (hl : before.locate path = .ok l) : after.locate path = .ok l :=
  FileSystem.locate_mono h.workingDirectory h.directory hl

/-- What a path leads to stays the same unless it lies where the artifact is now. -/
theorem find_elsewhere (h : store.Added before after signature text place) {path : Path}
    {node : Node} (hf : before.find path = .ok node) (hne : before.locate path ≠ .ok place) :
    after.find path = .ok node := by
  obtain ⟨other, hl, hn⟩ := FileSystem.find_eq_ok_iff.mp hf
  exact FileSystem.find_eq_ok_iff.mpr
    ⟨other, h.locate hl, h.kept_elsewhere (fun he ↦ hne (he ▸ hl)) hn⟩

/-- A file stays one unless it lies where the artifact is now. -/
theorem isFile_elsewhere (h : store.Added before after signature text place) {path : Path}
    (hfile : before.isFile path = true) (hne : before.locate path ≠ .ok place) :
    after.isFile path = true := by
  obtain ⟨other, file, hl, hn⟩ := FileSystem.isFile_iff.mp hfile
  exact FileSystem.isFile_iff.mpr
    ⟨other, file, h.locate hl, h.kept_elsewhere (fun he ↦ hne (he ▸ hl)) hn⟩

/-- A path that was steady leads to no other file than before. -/
theorem isFile_of_steady (h : store.Added before after signature text place) {path : Path}
    (hsteady : before.Steady path) (hfile : after.isFile path = true)
    (hne : after.locate path ≠ .ok place) : before.isFile path = true := by
  obtain ⟨other, file, hl, hn⟩ := FileSystem.isFile_iff.mp hfile
  have hother : other ≠ place := by
    rintro rfl
    exact hne hl
  have hbefore : before.nodeAt other = some (.file file) := by
    rcases h.elsewhere other hother with he | ⟨-, hdir, -⟩
    · rw [← he, hn]
    · rw [hdir] at hn
      cases hn
  have hl' := hsteady.locate h.workingDirectory h.directory hl (by simp [hn]) hbefore
  exact FileSystem.isFile_iff.mpr ⟨other, file, hl', hbefore⟩

private theorem vacant (h : store.Added before after signature text place)
    (hsteady : before.Steady (store.artifactPath signature))
    (habsent : store.contains before signature = false) : before.nodeAt place = none := by
  cases hn : before.nodeAt place with
  | none => rfl
  | some node =>
    cases node with
    | directory => exact absurd hn h.writable
    | file file =>
      have hl := hsteady.locate h.workingDirectory h.directory h.located (by simp [h.stored]) hn
      have hkept : store.contains before signature = true :=
        FileSystem.isFile_iff.mpr ⟨place, file, hl, hn⟩
      rw [habsent] at hkept
      cases hkept

/-- Nothing is lost when an artifact is added on a steady path. -/
theorem grows (h : store.Added before after signature text place)
    (hsteady : before.Steady (store.artifactPath signature))
    (habsent : store.contains before signature = false) : before.Grows after := by
  refine ⟨h.workingDirectory, fun other node hn ↦ h.kept_elsewhere ?_ hn⟩
  rintro rfl
  rw [h.vacant hsteady habsent] at hn
  cases hn

end Added

end LayeredConfig.Store
