import LayeredConfig.Proofs.FileSystem.Naming

/-!
# Steady paths

Two dots behind a directory that is missing cannot be followed, but can be once the directory is
made, and then they may lead anywhere. A path is steady while none of its dots do so: if it leads to
a file at all after directories were made, then it led there before.
-/

namespace LayeredConfig.FileSystem

variable {fs grown : FileSystem} {path : Path}

/-- Every two dots of a path lead out of a directory that is there. -/
def Steady (fs : FileSystem) (path : Path) : Prop :=
  ∀ before after, partsOf path = before ++ ".." :: after →
    ∃ place, fs.walk before (fs.start path) = .ok place ∧ fs.nodeAt place = some .directory

/-- A path without two dots is steady, whatever there is. -/
theorem steady_of_not_mem (h : ".." ∉ partsOf path) : fs.Steady path := by
  intro before after hparts
  rw [hparts] at h
  exact absurd (by simp) h

/-- A name in a directory adds no dots to the path of the directory. -/
theorem steady_child {directory : Path} {name : String} (h : Path.IsPlainName name)
    (hd : ".." ∉ partsOf directory) : fs.Steady (directory.child name) := by
  refine steady_of_not_mem fun hdots ↦ ?_
  by_cases hempty : directory.text = ""
  · rw [partsOf, Path.child_of_empty h hempty, Path.splitSlashes_of_not_mem h.slash] at hdots
    simp [Ne.symm h.ne_dots] at hdots
  · obtain ⟨front, hdirectory, hchild⟩ := partsOf_child h hempty
    rw [hchild] at hdots
    simp only [List.mem_append, List.mem_singleton, Ne.symm h.ne_dots, or_false] at hdots
    rcases hdirectory with hdirectory | hdirectory <;> simp [hdirectory, hdots] at hd

private theorem suffix_of_step {part : String} {origin next : Location} (hpart : part ≠ "..")
    (h : step part origin = .ok next) : origin <:+ next := by
  rw [step, if_neg hpart] at h
  split at h
  · cases h
    exact List.suffix_refl _
  · split at h
    · cases h
    · cases h
      exact List.suffix_cons part origin

private theorem walk_inward {parts : List String} {origin place : Location} {file : File}
    (hparts : ".." ∉ parts) (h : grown.walk parts origin = .ok place)
    (hgrown : grown.nodeAt place ≠ some .directory)
    (hfile : fs.nodeAt place = some (.file file)) :
    fs.walk parts origin = .ok place ∧ origin <:+ place := by
  induction parts generalizing origin with
  | nil =>
    cases h
    exact ⟨rfl, List.suffix_refl _⟩
  | cons part rest ih =>
    rw [List.mem_cons, not_or] at hparts
    obtain ⟨hn, next, hs, hr⟩ := walk_cons_eq_ok_iff.mp h
    obtain ⟨hwalk, hsuffix⟩ := ih hparts.2 hr
    have horigin : origin <:+ place := (suffix_of_step (Ne.symm hparts.1) hs).trans hsuffix
    have hne : origin ≠ place := by
      rintro rfl
      exact hgrown hn
    exact ⟨walk_cons_eq_ok_iff.mpr ⟨nodeAt_of_suffix horigin hne hfile, next, hs, hwalk⟩, horigin⟩

private theorem exists_last_split {item : String} {parts : List String} (h : item ∈ parts) :
    ∃ before after, parts = before ++ item :: after ∧ item ∉ after := by
  obtain ⟨after, before, hsplit, hnot⟩ := List.eq_append_cons_of_mem (List.mem_reverse.mpr h)
  refine ⟨before.reverse, after.reverse, ?_, by simpa using hnot⟩
  rw [← List.reverse_reverse parts, hsplit]
  simp

/-- A steady path that leads to a file after directories were made led there before. -/
theorem Steady.locate (hsteady : fs.Steady path)
    (hw : grown.workingDirectory = fs.workingDirectory)
    (hdirs : ∀ l, fs.nodeAt l = some .directory → grown.nodeAt l = some .directory)
    {place : Location} {file : File} (h : grown.locate path = .ok place)
    (hgrown : grown.nodeAt place ≠ some .directory)
    (hfile : fs.nodeAt place = some (.file file)) : fs.locate path = .ok place := by
  obtain ⟨hu, hwalk⟩ := locate_eq_ok_iff.mp h
  have hstart : grown.start path = fs.start path := by simp [start, hw]
  rw [hstart] at hwalk
  refine locate_eq_ok_iff.mpr ⟨hu, ?_⟩
  by_cases hdots : ".." ∈ partsOf path
  · -- behind the last two dots the walk only goes inwards; up to them it is as it was
    obtain ⟨before, after, hsplit, hnot⟩ := exists_last_split hdots
    obtain ⟨between, hbefore, hbetween⟩ := hsteady before after hsplit
    rw [hsplit] at hwalk ⊢
    obtain ⟨other, hother, hrest⟩ := walk_append_eq_ok_iff.mp hwalk
    rw [walk_mono hdirs hbefore] at hother
    cases hother
    obtain ⟨-, next, hs, hafter⟩ := walk_cons_eq_ok_iff.mp hrest
    exact walk_append_eq_ok_iff.mpr ⟨between, hbefore,
      walk_cons_eq_ok_iff.mpr ⟨hbetween, next, hs, (walk_inward hnot hafter hgrown hfile).1⟩⟩
  · exact (walk_inward hdots hwalk hgrown hfile).1

end LayeredConfig.FileSystem
