import LayeredConfig.FileSystem.Change
import LayeredConfig.Proofs.FileSystem.Following

/-!
# Removed files

Removing files takes away files alone: every directory stays, so that paths lead where they led, and
nothing is new. Once all that were to be removed have been, none of them is left; if they were files
of one directory, nothing else is gone.
-/

namespace LayeredConfig.FileSystem

/-- Some files are gone. Directories are the same, and every file that is left is as it was. -/
structure FilesRemoved (before after : FileSystem) : Prop where
  workingDirectory : after.workingDirectory = before.workingDirectory
  directories : ∀ place,
    after.nodeAt place = some .directory ↔ before.nodeAt place = some .directory
  files : ∀ place file,
    after.nodeAt place = some (.file file) → before.nodeAt place = some (.file file)

namespace FilesRemoved

variable {before after : FileSystem}

/-- No file may be gone. -/
theorem refl (fs : FileSystem) : fs.FilesRemoved fs :=
  ⟨rfl, fun _ ↦ Iff.rfl, fun _ _ hn ↦ hn⟩

/-- More files may be gone. -/
theorem trans {fewer : FileSystem} (h : before.FilesRemoved after)
    (h' : after.FilesRemoved fewer) : before.FilesRemoved fewer :=
  ⟨h'.workingDirectory.trans h.workingDirectory,
    fun place ↦ (h'.directories place).trans (h.directories place),
    fun place file hn ↦ h.files place file (h'.files place file hn)⟩

/-- A path leads where it led. -/
theorem locate_iff (h : before.FilesRemoved after) {path : Path} {place : Location} :
    after.locate path = .ok place ↔ before.locate path = .ok place :=
  ⟨locate_mono h.workingDirectory.symm fun l ↦ (h.directories l).mp,
    locate_mono h.workingDirectory fun l ↦ (h.directories l).mpr⟩

/-- What is there was there. -/
theorem nodeAt (h : before.FilesRemoved after) {place : Location} {node : Node}
    (hn : after.nodeAt place = some node) : before.nodeAt place = some node := by
  cases node with
  | file file => exact h.files place file hn
  | directory => exact (h.directories place).mp hn

/-- What is a file was one. -/
theorem isFile (h : before.FilesRemoved after) {path : Path}
    (hfile : after.isFile path = true) : before.isFile path = true := by
  obtain ⟨place, file, hl, hn⟩ := isFile_iff.mp hfile
  exact isFile_iff.mpr ⟨place, file, h.locate_iff.mp hl, h.files place file hn⟩

end FilesRemoved

variable {fs after : FileSystem} {path : Path}

private theorem filesRemoved_erase {place : Location} {file : File}
    (hfile : fs.nodeAt place = some (.file file)) : fs.FilesRemoved (fs.erase place) := by
  have hdirectory (other : Location) (hd : fs.nodeAt other = some .directory) :
      (fs.erase place).nodeAt other = some .directory := by
    have hout : ¬ place <:+ other := by
      intro hs
      -- nothing lies inside a file
      by_cases he : place = other
      · rw [he, hd] at hfile
        cases hfile
      · rw [nodeAt_of_suffix hs he hd] at hfile
        cases hfile
    rw [nodeAt_erase_of_not_suffix fs hout, hd]
  have hkept (other : Location) (node : Node) (hn : (fs.erase place).nodeAt other = some node) :
      fs.nodeAt other = some node := by
    by_cases hs : place <:+ other
    · by_cases hroot : other = []
      · rwa [hroot] at hn ⊢
      · rw [nodeAt_erase_of_suffix fs hs hroot] at hn
        cases hn
    · rwa [nodeAt_erase_of_not_suffix fs hs] at hn
  exact ⟨rfl, fun other ↦ ⟨hkept other .directory, hdirectory other⟩,
    fun other held ↦ hkept other (.file held)⟩

/-- What is removed is a file where the path leads. -/
theorem removeFile_eq_erase (h : fs.removeFile path = .ok after) :
    ∃ place file, fs.locate path = .ok place ∧ fs.nodeAt place = some (.file file) ∧
      after = fs.erase place := by
  rw [removeFile] at h
  split at h
  · cases h
  · next place hl =>
    split at h
    · cases h
    · cases h
    · next file hfile =>
      split at h
      · cases h
      · exact ⟨place, file, hl, hfile, (Except.ok.inj h).symm⟩

/-- Removing what a path leads to takes away a file. -/
theorem filesRemoved_removeFile (h : fs.removeFile path = .ok after) : fs.FilesRemoved after := by
  obtain ⟨place, file, -, hfile, rfl⟩ := removeFile_eq_erase h
  exact filesRemoved_erase hfile

private theorem isFile_removeFile (h : fs.removeFile path = .ok after) :
    after.isFile path = false := by
  rw [Bool.eq_false_iff]
  intro hkept
  obtain ⟨other, held, hother, hn⟩ := isFile_iff.mp hkept
  have hbefore := (filesRemoved_removeFile h).locate_iff.mp hother
  obtain ⟨place, file, hl, hfile, rfl⟩ := removeFile_eq_erase h
  obtain rfl : place = other := Except.ok.inj (hl.symm.trans hbefore)
  have hroot : place ≠ [] := by
    rintro rfl
    cases hfile
  rw [nodeAt_erase_of_suffix fs (List.suffix_refl place) hroot] at hn
  cases hn

/-- Removing files in order takes away files alone, even if one of them cannot be removed. -/
theorem filesRemoved_removeFiles (fs : FileSystem) (paths : List Path) :
    fs.FilesRemoved (fs.removeFiles paths).2 := by
  induction paths generalizing fs with
  | nil => exact .refl fs
  | cons path rest ih =>
    rw [removeFiles]
    split
    · exact .refl fs
    · next fewer hremoved => exact (filesRemoved_removeFile hremoved).trans (ih fewer)

/-- Files are removed in order when the first can be removed, and then the others. -/
theorem removeFiles_cons_eq_ok_iff {paths : List Path} :
    fs.removeFiles (path :: paths) = (.ok (), after) ↔
      ∃ fewer, fs.removeFile path = .ok fewer ∧ fewer.removeFiles paths = (.ok (), after) := by
  rw [removeFiles]
  cases fs.removeFile path <;> simp

/-- Of files that were removed in order none is left. -/
theorem isFile_removeFiles {paths : List Path} (h : fs.removeFiles paths = (.ok (), after))
    (hmem : path ∈ paths) : after.isFile path = false := by
  induction paths generalizing fs with
  | nil => cases hmem
  | cons first rest ih =>
    obtain ⟨fewer, hfirst, hrest⟩ := removeFiles_cons_eq_ok_iff.mp h
    rcases List.mem_cons.mp hmem with rfl | hmem
    · -- what was removed first does not come back
      rw [Bool.eq_false_iff]
      intro hfile
      have hlater := filesRemoved_removeFiles fewer rest
      rw [hrest] at hlater
      have hgone := hlater.isFile hfile
      rw [isFile_removeFile hfirst] at hgone
      cases hgone
    · exact ih hrest hmem

/-! ### Which files are gone -/

/-- The files at some places are gone, each of them once, and nothing else has changed. -/
structure FilesGone (before after : FileSystem) (gone : List Location) : Prop where
  workingDirectory : after.workingDirectory = before.workingDirectory
  distinct : gone.Nodup
  files : ∀ place ∈ gone, ∃ file, before.nodeAt place = some (.file file)
  absent : ∀ place ∈ gone, after.nodeAt place = none
  elsewhere : ∀ place, place ∉ gone → after.nodeAt place = before.nodeAt place

/-- Nothing is gone when nothing changes. -/
theorem FilesGone.nil (fs : FileSystem) : fs.FilesGone fs [] :=
  ⟨rfl, List.nodup_nil, nofun, nofun, fun _ _ ↦ rfl⟩

private theorem FilesGone.append {before between after : FileSystem} {first second : List Location}
    (h : before.FilesGone between first) (h' : between.FilesGone after second) :
    before.FilesGone after (first ++ second) := by
  have hdisjoint {place : Location} (hfirst : place ∈ first) : place ∉ second := by
    intro hsecond
    obtain ⟨file, hfile⟩ := h'.files place hsecond
    rw [h.absent place hfirst] at hfile
    cases hfile
  refine ⟨h'.workingDirectory.trans h.workingDirectory, ?_, ?_, ?_, ?_⟩
  · refine List.nodup_append.mpr ⟨h.distinct, h'.distinct, ?_⟩
    rintro place hfirst other hsecond rfl
    exact hdisjoint hfirst hsecond
  · intro place hplace
    rcases List.mem_append.mp hplace with hfirst | hsecond
    · exact h.files place hfirst
    · rw [← h.elsewhere place fun hfirst ↦ hdisjoint hfirst hsecond]
      exact h'.files place hsecond
  · intro place hplace
    rcases List.mem_append.mp hplace with hfirst | hsecond
    · rw [h'.elsewhere place (hdisjoint hfirst), h.absent place hfirst]
    · exact h'.absent place hsecond
  · intro place hplace
    rw [List.mem_append, not_or] at hplace
    rw [h'.elsewhere place hplace.2, h.elsewhere place hplace.1]

private theorem filesGone_removeFile {place : Location} (hl : fs.locate path = .ok place)
    (h : fs.removeFile path = .ok after) : fs.FilesGone after [place] := by
  obtain ⟨found, file, hfound, hfile, rfl⟩ := removeFile_eq_erase h
  obtain rfl : place = found := Except.ok.inj (hl.symm.trans hfound)
  have hroot : place ≠ [] := by
    rintro rfl
    cases hfile
  refine ⟨rfl, List.pairwise_singleton _ place, ?_, ?_, ?_⟩
  · intro other hother
    obtain rfl := List.mem_singleton.mp hother
    exact ⟨file, hfile⟩
  · intro other hother
    obtain rfl := List.mem_singleton.mp hother
    exact nodeAt_erase_of_suffix fs (List.suffix_refl other) hroot
  · intro other hother
    rw [List.mem_singleton] at hother
    by_cases hs : place <:+ other
    · -- nothing lies inside a file, before or after
      cases hn : fs.nodeAt other with
      | some node =>
        rw [nodeAt_of_suffix hs (Ne.symm hother) hn] at hfile
        cases hfile
      | none =>
        refine nodeAt_erase_of_suffix fs hs ?_
        rintro rfl
        exact hroot (List.suffix_nil.mp hs)
    · exact nodeAt_erase_of_not_suffix fs hs

/-- Removing files of one directory takes away those files alone. -/
theorem filesGone_removeFiles {directory : Path} {place : Location} {names : List String}
    (hplaces : ∀ name ∈ names, fs.locate (directory.child name) = .ok (name :: place))
    (h : fs.removeFiles (names.map directory.child) = (.ok (), after)) :
    fs.FilesGone after (names.map (· :: place)) := by
  induction names generalizing fs with
  | nil =>
    obtain rfl := (Prod.mk.inj h).2
    exact .nil fs
  | cons name rest ih =>
    obtain ⟨hl, hothers⟩ := List.forall_mem_cons.mp hplaces
    obtain ⟨fewer, hfirst, hrest⟩ := removeFiles_cons_eq_ok_iff.mp h
    refine (filesGone_removeFile hl hfirst).append (ih (fun other hother ↦ ?_) hrest)
    exact (filesRemoved_removeFile hfirst).locate_iff.mpr (hothers other hother)

end LayeredConfig.FileSystem
