import LayeredConfig.FileSystem.Lookup

/-!
# What following a path depends on

A path is followed through directories alone. Where every directory of one file system is one of
another, a path that can be followed in the first leads to the same place in the second, and a file
system that grows keeps what every path leads to.
-/

namespace LayeredConfig.FileSystem

/-- Whatever has something inside it is a directory. -/
theorem nodeAt_of_suffix {fs : FileSystem} {outer inner : Location} {node : Node}
    (h : outer <:+ inner) (hne : outer ≠ inner) (hn : fs.nodeAt inner = some node) :
    fs.nodeAt outer = some .directory := by
  induction inner generalizing node with
  | nil => exact absurd (List.suffix_nil.mp h) hne
  | cons name parent ih =>
    have hp := nodeAt_parent hn
    rcases List.suffix_cons_iff.mp h with h | h
    · exact absurd h hne
    · by_cases he : outer = parent
      · rwa [he]
      · exact ih h he hp

/-! ### One part after the other -/

/-- The first part is followed from a directory, and the others from where it leads. -/
theorem walk_cons_eq_ok_iff {fs : FileSystem} {part : String} {rest : List String}
    {origin place : Location} :
    fs.walk (part :: rest) origin = .ok place ↔
      fs.nodeAt origin = some .directory ∧
        ∃ next, step part origin = .ok next ∧ fs.walk rest next = .ok place := by
  constructor
  · intro h
    rw [walk] at h
    split at h
    · cases h
    · cases h
    · next hn =>
      refine ⟨hn, ?_⟩
      split at h
      · cases h
      · next next hs => exact ⟨next, hs, h⟩
  · rintro ⟨hn, next, hs, h⟩
    rw [walk, hn]
    simp only [hs]
    exact h

/-- Parts are followed one list after the other. -/
theorem walk_append_eq_ok_iff {fs : FileSystem} {first second : List String}
    {origin place : Location} :
    fs.walk (first ++ second) origin = .ok place ↔
      ∃ between, fs.walk first origin = .ok between ∧ fs.walk second between = .ok place := by
  induction first generalizing origin with
  | nil => simp [walk]
  | cons part rest ih =>
    rw [List.cons_append, walk_cons_eq_ok_iff]
    constructor
    · rintro ⟨hn, next, hs, h⟩
      obtain ⟨between, hr, h⟩ := ih.mp h
      exact ⟨between, walk_cons_eq_ok_iff.mpr ⟨hn, next, hs, hr⟩, h⟩
    · rintro ⟨between, hf, h⟩
      obtain ⟨hn, next, hs, hr⟩ := walk_cons_eq_ok_iff.mp hf
      exact ⟨hn, next, hs, ih.mpr ⟨between, hr, h⟩⟩

/-- Empty parts lead nowhere else from a directory. -/
theorem walk_idle {fs : FileSystem} {parts : List String} {place : Location}
    (hidle : ∀ part ∈ parts, part = "") (hn : fs.nodeAt place = some .directory) :
    fs.walk parts place = .ok place := by
  induction parts with
  | nil => rfl
  | cons part rest ih =>
    obtain ⟨hp, hr⟩ := List.forall_mem_cons.mp hidle
    exact walk_cons_eq_ok_iff.mpr ⟨hn, place, by simp [step, hp], ih hr⟩

/-- A path that can be followed leads to the place that its parts lead to. -/
theorem locate_eq_ok_iff {fs : FileSystem} {path : Path} {place : Location} :
    fs.locate path = .ok place ↔
      unusable? path = none ∧ fs.walk (partsOf path) (fs.start path) = .ok place := by
  rw [locate]
  cases unusable? path with
  | none => simp
  | some trouble => simp

/-! ### More directories -/

/-- With more directories, parts lead where they led. -/
theorem walk_mono {fs other : FileSystem} {parts : List String} {origin place : Location}
    (hdirs : ∀ l, fs.nodeAt l = some .directory → other.nodeAt l = some .directory)
    (h : fs.walk parts origin = .ok place) : other.walk parts origin = .ok place := by
  induction parts generalizing origin with
  | nil => exact h
  | cons part rest ih =>
    obtain ⟨hn, next, hs, hr⟩ := walk_cons_eq_ok_iff.mp h
    exact walk_cons_eq_ok_iff.mpr ⟨hdirs origin hn, next, hs, ih hr⟩

/-- With more directories, a path leads where it led. -/
theorem locate_mono {fs other : FileSystem} {path : Path} {place : Location}
    (hw : other.workingDirectory = fs.workingDirectory)
    (hdirs : ∀ l, fs.nodeAt l = some .directory → other.nodeAt l = some .directory)
    (h : fs.locate path = .ok place) : other.locate path = .ok place := by
  obtain ⟨hu, hwalk⟩ := locate_eq_ok_iff.mp h
  have hs : other.start path = fs.start path := by simp [start, hw]
  exact locate_eq_ok_iff.mpr ⟨hu, by rw [hs]; exact walk_mono hdirs hwalk⟩

/-! ### What is found -/

/-- A path leads to a node exactly when the node lies where the path leads. -/
theorem find_eq_ok_iff {fs : FileSystem} {path : Path} {node : Node} :
    fs.find path = .ok node ↔
      ∃ place, fs.locate path = .ok place ∧ fs.nodeAt place = some node := by
  rw [find]
  cases fs.locate path with
  | error trouble => simp
  | ok place =>
    cases hn : fs.nodeAt place with
    | none => simp [hn]
    | some other => simp [hn]

/-- The bytes that are read are those of a file that is found and can be read. -/
theorem readBytes_iff_find {fs : FileSystem} {path : Path} {bytes : ByteArray} :
    fs.readBytes path = .ok bytes ↔ fs.find path = .ok (.file bytes) := by
  rw [readBytes]
  rcases fs.find path with trouble | (⟨held, _ | _⟩ | _) <;> simp

/-- The bytes that are read are those of a file that can be read, where the path leads. -/
theorem readBytes_eq_ok_iff {fs : FileSystem} {path : Path} {bytes : ByteArray} :
    fs.readBytes path = .ok bytes ↔
      ∃ place, fs.locate path = .ok place ∧ fs.nodeAt place = some (.file bytes) := by
  rw [readBytes_iff_find, find_eq_ok_iff]

/-- A path leads to a file exactly when one lies there, whether or not it can be read. -/
theorem isFile_iff {fs : FileSystem} {path : Path} :
    fs.isFile path = true ↔
      ∃ place file, fs.locate path = .ok place ∧ fs.nodeAt place = some (.file file) := by
  have hfind : fs.isFile path = true ↔ ∃ file, fs.find path = .ok (.file file) := by
    rw [isFile]
    rcases fs.find path with trouble | (_ | _) <;> simp
  simp only [hfind, find_eq_ok_iff]
  exact exists_comm

/-- A file that is found is one. -/
theorem isFile_of_find {fs : FileSystem} {path : Path} {file : File}
    (h : fs.find path = .ok (.file file)) : fs.isFile path = true := by
  obtain ⟨place, hl, hn⟩ := find_eq_ok_iff.mp h
  exact isFile_iff.mpr ⟨place, file, hl, hn⟩

/-- A path to a vacant place leads into a directory, and nothing lies there. -/
theorem isVacant_iff {fs : FileSystem} {path : Path} :
    fs.isVacant path = true ↔
      ∃ place, fs.locate path = .ok place ∧ fs.nodeAt place = none := by
  rw [isVacant]
  cases fs.locate path with
  | error trouble => simp
  | ok place => simp [Option.isNone_iff_eq_none]

/-! ### Growth -/

/-- All that lies in a file system lies in the grown one, and relative paths start at the same
place. -/
structure Grows (fs grown : FileSystem) : Prop where
  workingDirectory : grown.workingDirectory = fs.workingDirectory
  kept : ∀ place node, fs.nodeAt place = some node → grown.nodeAt place = some node

namespace Grows

variable {fs grown : FileSystem}

/-- Nothing is lost when nothing changes. -/
theorem refl (fs : FileSystem) : fs.Grows fs := ⟨rfl, fun _ _ h ↦ h⟩

/-- A path leads where it led. -/
theorem locate (h : fs.Grows grown) {path : Path} {place : Location}
    (hl : fs.locate path = .ok place) : grown.locate path = .ok place :=
  locate_mono h.workingDirectory (fun l ↦ h.kept l .directory) hl

/-- What a path leads to stays the same. -/
theorem find (h : fs.Grows grown) {path : Path} {node : Node} (hf : fs.find path = .ok node) :
    grown.find path = .ok node := by
  obtain ⟨place, hl, hn⟩ := find_eq_ok_iff.mp hf
  exact find_eq_ok_iff.mpr ⟨place, h.locate hl, h.kept place node hn⟩

end Grows

end LayeredConfig.FileSystem
