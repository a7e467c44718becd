import LayeredConfig.Proofs.FileSystem.Directories

/-!
# Written files

A file that is written lies where its path leads, holds the bytes, and is the only change. Making a
temporary file where nothing was, filling it and moving it into place comes to the same. When it
cannot be made, filled or moved, nothing has changed, so that no temporary file is ever left.
-/

namespace LayeredConfig.FileSystem

variable {fs written : FileSystem} {path : Path} {file : File}

/-- A path leads to a place, which holds a file afterwards; it held no directory before. All else is
as it was. -/
structure FileWritten (before after : FileSystem) (path : Path) (file : File)
    (place : Location) : Prop where
  workingDirectory : after.workingDirectory = before.workingDirectory
  located : before.locate path = .ok place
  writable : before.nodeAt place ≠ some .directory
  stored : after.nodeAt place = some (.file file)
  elsewhere : ∀ other, other ≠ place → after.nodeAt other = before.nodeAt other

/-- A file is written by putting it at the destination of its path, unless that is refused. -/
theorem writeFile_eq_put (h : fs.writeFile path file = .ok written) :
    ∃ name parent, ∃ hp : fs.nodeAt parent = some .directory,
      ∃ hn : fs.nodeAt (name :: parent) ≠ some .directory,
        unusable? path = none ∧
          fs.destination (partsOf path) (fs.start path) = .ok (name, parent) ∧
          fs.refuses (name :: parent) (some (.file file)) = false ∧
          written = fs.put name parent (.file file) hp hn := by
  rw [writeFile] at h
  split at h
  · cases h
  · next hu =>
    split at h
    · cases h
    · next name parent hdest =>
      split at h
      · next hfree =>
        split at h
        · cases h
        · next hallowed =>
          exact ⟨name, parent, hfree.1, hfree.2, hu, hdest, Bool.eq_false_iff.mpr hallowed,
            (Except.ok.inj h).symm⟩
      · cases h

/-- Writing a file changes one place. -/
theorem fileWritten_of_writeFile (h : fs.writeFile path file = .ok written) :
    ∃ place, fs.FileWritten written path file place := by
  obtain ⟨name, parent, hp, hn, hu, hdest, -, rfl⟩ := writeFile_eq_put h
  exact ⟨name :: parent, rfl, locate_eq_ok_iff.mpr ⟨hu, walk_of_destination hdest⟩, hn,
    nodeAt_put_self fs name parent _ hp hn, fun other ho ↦ nodeAt_put_of_ne fs _ hp hn ho⟩

namespace FileWritten

variable {before after : FileSystem} {place : Location}

private theorem directory (h : before.FileWritten after path file place) (other : Location)
    (hd : before.nodeAt other = some .directory) : after.nodeAt other = some .directory := by
  have hne : other ≠ place := by
    rintro rfl
    exact h.writable hd
  rw [h.elsewhere other hne, hd]

/-- Any path leads where it led. -/
theorem locate (h : before.FileWritten after path file place) {other : Path} {l : Location}
    (hl : before.locate other = .ok l) : after.locate other = .ok l :=
  locate_mono h.workingDirectory h.directory hl

end FileWritten

/-- A text is read where its bytes are. -/
theorem readText_of_readBytes {text : String} (h : fs.readBytes path = .ok text.toUTF8) :
    fs.readText path = .ok text := by
  have hdecoded : String.fromUTF8? text.toUTF8 = some text := by
    rw [String.fromUTF8?, String.toUTF8_eq_toByteArray, dif_pos text.isValidUTF8]
    rfl
  simp only [readText, h, hdecoded, Option.elim_some]

/-- A text that is read is that of the bytes. -/
theorem readBytes_of_readText {text : String} (h : fs.readText path = .ok text) :
    fs.readBytes path = .ok text.toUTF8 := by
  rw [readText] at h
  split at h
  · cases h
  · next bytes hbytes =>
    rw [hbytes]
    rw [String.fromUTF8?] at h
    split at h
    · rw [← Except.ok.inj h]
      rfl
    · cases h

/-! ### Temporary files -/

private theorem not_suffix_of_vacant {vacant : Location} (hv : fs.nodeAt vacant = none)
    {entry : Location × Node} (he : entry ∈ fs.nodes) : ¬ vacant <:+ entry.1 := by
  intro hs
  obtain ⟨name, parent, hp, -⟩ := fs.enclosed entry he
  have hn : fs.nodeAt entry.1 = some entry.2 := by
    rw [hp]
    exact find?_of_mem fs.distinct (by rw [← hp]; exact he)
  by_cases heq : vacant = entry.1
  · rw [heq, hn] at hv
    cases hv
  · rw [nodeAt_of_suffix hs heq hn] at hv
    cases hv

private theorem erase_of_vacant {vacant : Location} (hv : fs.nodeAt vacant = none) :
    fs.erase vacant = fs := by
  have hall : fs.nodes.filter (fun entry ↦ !vacant.isSuffixOf entry.1) = fs.nodes := by
    refine List.filter_eq_self.mpr fun entry he ↦ ?_
    rw [Bool.not_eq_true', Bool.eq_false_iff, ne_eq, List.isSuffixOf_iff_suffix]
    exact not_suffix_of_vacant hv he
  exact FileSystem.ext hall rfl rfl

private theorem erase_put {name : String} {parent : Location} {node : Node}
    (hp : fs.nodeAt parent = some .directory)
    (hn : fs.nodeAt (name :: parent) ≠ some .directory) :
    (fs.put name parent node hp hn).erase (name :: parent) = fs.erase (name :: parent) := by
  have hself : (name :: parent).isSuffixOf (name :: parent) = true :=
    List.isSuffixOf_iff_suffix.mpr (List.suffix_refl _)
  refine FileSystem.ext ?_ rfl rfl
  simp only [erase, put, List.filter_cons, hself, Bool.not_true, Bool.false_eq_true, if_false,
    List.filter_filter]
  refine List.filter_congr fun entry _ ↦ ?_
  by_cases he : entry.1 = name :: parent
  · simp [he]
  · simp [he]

/-- A path leads to a temporary file: it may be taken away, and then all is as it was without it. -/
structure Temporary (before after : FileSystem) (path : Path) (file : File)
    (place : Location) : Prop where
  located : after.locate path = .ok place
  stored : after.nodeAt place = some (.file file)
  removable : after.refuses place none = false
  undone : after.erase place = before

private theorem temporary_of_writeFile {place : Location} (hl : fs.locate path = .ok place)
    (h : fs.writeFile path file = .ok written) :
    (fs.erase place).Temporary written path file place := by
  obtain ⟨found, hw⟩ := fileWritten_of_writeFile h
  obtain rfl : place = found := Except.ok.inj (hl.symm.trans hw.located)
  obtain ⟨name, parent, hp, hn, hu, hdest, hallowed, rfl⟩ := writeFile_eq_put h
  obtain rfl : place = name :: parent := Except.ok.inj
    (hl.symm.trans (locate_eq_ok_iff.mpr ⟨hu, walk_of_destination hdest⟩))
  refine ⟨hw.locate hl, hw.stored, ?_, erase_put hp hn⟩
  rw [Bool.eq_false_iff]
  intro hrefused
  rw [fs.reversible _ _ hrefused] at hallowed
  cases hallowed

namespace Temporary

variable {after : FileSystem} {temporary : Path} {place : Location}

private theorem tryRemove (h : fs.Temporary after temporary file place) :
    after.tryRemove temporary = fs := by
  rw [FileSystem.tryRemove, removeFile, h.located]
  simp only [h.stored, h.removable, Bool.false_eq_true, if_false, h.undone]

private theorem moveFile (h : fs.Temporary after temporary file place) (target : Path) :
    after.moveFile temporary target = fs.writeFile target file := by
  rw [FileSystem.moveFile, h.located]
  simp only [h.stored, h.removable, Bool.false_eq_true, if_false, h.undone]

end Temporary

/-- Writing through a temporary file changes nothing or writes the file, and no temporary file is
left. -/
theorem writeThrough_cases {temporary : Path} (target : Path) (bytes : ByteArray)
    (hv : fs.isVacant temporary = true) :
    (∃ trouble, fs.writeThrough temporary target bytes = (.error trouble, fs)) ∨
      ∃ written, fs.writeFile target bytes = .ok written ∧
        fs.writeThrough temporary target bytes = (.ok (), written) := by
  obtain ⟨place, hl, hvacant⟩ := isVacant_iff.mp hv
  rw [writeThrough]
  cases hmade : fs.writeFile temporary ByteArray.empty with
  | error trouble => exact .inl ⟨trouble, rfl⟩
  | ok made =>
    have hempty := temporary_of_writeFile hl hmade
    rw [erase_of_vacant hvacant] at hempty
    simp only
    cases hfilled : made.writeFile temporary bytes with
    | error trouble => exact .inl ⟨trouble, by simp only [hempty.tryRemove]⟩
    | ok filled =>
      have hfull := temporary_of_writeFile hempty.located hfilled
      rw [hempty.undone] at hfull
      simp only [hfull.moveFile, hfull.tryRemove]
      cases fs.writeFile target bytes with
      | error trouble => exact .inl ⟨trouble, rfl⟩
      | ok written => exact .inr ⟨written, rfl, rfl⟩

/-- A path that is found for a temporary file leads to a place where nothing is. -/
theorem isVacant_of_vacantPath? {directory : Path} {attempts first : Nat}
    (h : fs.vacantPath? directory attempts first = some path) : fs.isVacant path = true := by
  induction attempts generalizing first with
  | zero => cases h
  | succ attempts ih =>
    rw [vacantPath?] at h
    split at h
    · next hv =>
      rw [← Option.some.inj h]
      exact hv
    · exact ih h

end LayeredConfig.FileSystem
