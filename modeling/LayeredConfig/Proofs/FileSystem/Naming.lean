import LayeredConfig.Proofs.FileSystem.Following

/-!
# Names in a directory

A plain name appended to the path of a directory leads to that name in the directory. What is found
there depends only on where the directory is and on what lies in it.
-/

namespace LayeredConfig

namespace Path

/-- There is always a part. -/
theorem splitSlashes_ne_nil (text : List Char) : splitSlashes text ≠ [] := by
  cases text with
  | nil => simp [splitSlashes]
  | cons c rest =>
    rw [splitSlashes]
    split
    · simp
    · split <;> simp

/-- A text is split on both sides of a slash. -/
theorem splitSlashes_append (first second : List Char) :
    splitSlashes (first ++ '/' :: second) = splitSlashes first ++ splitSlashes second := by
  induction first with
  | nil => simp [splitSlashes]
  | cons c rest ih =>
    by_cases hc : c = '/'
    · simp [splitSlashes, hc, ih]
    · simp only [List.cons_append, splitSlashes, hc, if_false, ih]
      cases hs : splitSlashes rest with
      | nil => exact absurd hs (splitSlashes_ne_nil rest)
      | cons part more => rfl

/-- A text without slashes is one part. -/
theorem splitSlashes_of_not_mem {text : List Char} (h : '/' ∉ text) :
    splitSlashes text = [text] := by
  induction text with
  | nil => rfl
  | cons c rest ih =>
    rw [List.mem_cons, not_or] at h
    simp [splitSlashes, Ne.symm h.1, ih h.2]

/-- A name that is one part of a path and leads into the directory it stands in. -/
structure IsPlainName (name : String) : Prop where
  slash : '/' ∉ name.toList
  ne_empty : name ≠ ""
  ne_dot : name ≠ "."
  ne_dots : name ≠ ".."

/-- A plain name is no absolute path. -/
theorem isAbsolute_of_isPlainName {name : String} (h : IsPlainName name) :
    isAbsolute ⟨name⟩ = false := by
  cases hn : name.toList with
  | nil => simp [isAbsolute, hn]
  | cons c rest =>
    have hc : c ≠ '/' := fun hc ↦ h.slash (by simp [hn, hc])
    simp [isAbsolute, hn, hc]

/-- A plain name is appended to a directory behind one slash. -/
theorem toList_child {directory : Path} {name : String} (h : IsPlainName name)
    (hd : directory.text ≠ "") :
    ∃ front, (directory.text.toList = front ∨ directory.text.toList = front ++ ['/']) ∧
      (directory.child name).text.toList = front ++ '/' :: name.toList := by
  rw [child, join, isAbsolute_of_isPlainName h]
  simp only [Bool.false_eq_true, if_false]
  split
  · next hlast =>
    rw [List.getLast?_eq_none_iff] at hlast
    exact absurd (String.toList_eq_nil_iff.mp hlast) hd
  · next hlast =>
    obtain ⟨front, hfront⟩ := List.getLast?_eq_some_iff.mp hlast
    exact ⟨front, .inr hfront, by simp [String.toList_append, hfront]⟩
  · exact ⟨directory.text.toList, .inl rfl, by simp [String.toList_append]⟩

/-- A plain name stands alone when the directory has no text. -/
theorem child_of_empty {directory : Path} {name : String} (h : IsPlainName name)
    (hd : directory.text = "") : directory.child name = ⟨name⟩ := by
  rw [child, join, isAbsolute_of_isPlainName h, hd]
  rfl

/-- A name is split at its last dot into stem and extension, unless the dot opens it. -/
theorem splitExtension_append {stem extension : List Char} (hstem : stem ≠ [])
    (hdot : '.' ∉ extension) :
    splitExtension (stem ++ '.' :: extension) = (stem, some extension) := by
  have hreverse : (stem ++ '.' :: extension).reverse
      = extension.reverse ++ '.' :: stem.reverse := by
    simp
  have hplain : ∀ c ∈ extension.reverse, (c != '.') = true := by
    intro c hc
    simp only [bne_iff_ne, ne_eq]
    rintro rfl
    exact hdot (List.mem_reverse.mp hc)
  have hafter : ((extension.reverse ++ '.' :: stem.reverse).takeWhile (· != '.')).reverse
      = extension := by
    rw [List.takeWhile_append_of_pos hplain]
    simp
  have hbefore : ((extension.reverse ++ '.' :: stem.reverse).dropWhile (· != '.')).reverse.dropLast
      = stem := by
    rw [List.dropWhile_append_of_pos hplain]
    simp
  simp only [splitExtension, hreverse, hafter, hbefore]

end Path

namespace FileSystem

open LayeredConfig.Path (IsPlainName)

variable {fs : FileSystem} {directory : Path} {name : String}

/-- The place of a directory; without a text it is the working directory. -/
def locateDirectory (fs : FileSystem) (directory : Path) : Except Trouble Location :=
  if directory.text = "" then .ok fs.workingDirectory else fs.locate directory

/-- With more directories, a directory lies where it lay. -/
theorem locateDirectory_mono {other : FileSystem} {place : Location}
    (hw : other.workingDirectory = fs.workingDirectory)
    (hdirs : ∀ l, fs.nodeAt l = some .directory → other.nodeAt l = some .directory)
    (h : fs.locateDirectory directory = .ok place) :
    other.locateDirectory directory = .ok place := by
  rw [locateDirectory] at h ⊢
  split at h
  · next hempty => rw [if_pos hempty, hw, h]
  · next hd => rw [if_neg hd, locate_mono hw hdirs h]

/-- The parts of a name in a directory are those of the directory and the name. -/
theorem partsOf_child (h : IsPlainName name) (hd : directory.text ≠ "") :
    ∃ front, (partsOf directory = front ∨ partsOf directory = front ++ [""]) ∧
      partsOf (directory.child name) = front ++ [name] := by
  obtain ⟨front, hdirectory, hchild⟩ := Path.toList_child h hd
  refine ⟨(Path.splitSlashes front).map String.ofList, ?_, ?_⟩
  · rcases hdirectory with hdirectory | hdirectory
    · exact .inl (by rw [partsOf, hdirectory])
    · right
      rw [partsOf, hdirectory, Path.splitSlashes_append, List.map_append]
      rfl
  · rw [partsOf, hchild, Path.splitSlashes_append, Path.splitSlashes_of_not_mem h.slash,
      List.map_append, List.map_singleton, String.ofList_toList]

private theorem start_child (h : IsPlainName name) (hd : directory.text ≠ "") :
    fs.start (directory.child name) = fs.start directory := by
  obtain ⟨front, hdirectory, hchild⟩ := Path.toList_child h hd
  have habsolute : (directory.child name).isAbsolute = directory.isAbsolute := by
    rw [Path.isAbsolute, Path.isAbsolute, hchild]
    rcases hdirectory with hdirectory | hdirectory
    · cases hf : front with
      | nil => exact absurd (String.toList_eq_nil_iff.mp (hdirectory.trans hf)) hd
      | cons c rest => rw [hdirectory, hf]; rfl
    · cases hf : front <;> rw [hdirectory, hf] <;> rfl
  rw [start, start, habsolute]

private theorem unusable?_of_child (h : IsPlainName name) (hd : directory.text ≠ "")
    (hu : unusable? (directory.child name) = none) : unusable? directory = none := by
  obtain ⟨front, hdirectory, hchild⟩ := Path.toList_child h hd
  have htail : ∃ tail, (directory.child name).text = directory.text ++ String.ofList tail := by
    rcases hdirectory with hdirectory | hdirectory
    · exact ⟨'/' :: name.toList, String.toList_injective (by simp [hchild, hdirectory])⟩
    · exact ⟨name.toList, String.toList_injective (by simp [hchild, hdirectory])⟩
  obtain ⟨tail, htail⟩ := htail
  rw [unusable?, htail] at hu
  rw [unusable?, if_neg hd]
  split at hu
  · cases hu
  · split at hu
    · cases hu
    · next hnone =>
      rw [if_neg]
      simp only [String.toList_append, String.utf8ByteSize_append, List.contains_eq_mem,
        List.mem_append, not_or, decide_eq_true_eq] at hnone ⊢
      exact ⟨hnone.1.1, by omega⟩

private theorem walk_name_eq_ok_iff (h : IsPlainName name) {place inner : Location} :
    fs.walk [name] place = .ok inner ↔
      name.utf8ByteSize ≤ nameLimit ∧ fs.nodeAt place = some .directory ∧
        inner = name :: place := by
  rw [walk_cons_eq_ok_iff, step, if_neg (by simp [h.ne_empty, h.ne_dot]), if_neg h.ne_dots]
  by_cases hlimit : nameLimit < name.utf8ByteSize
  · simp [hlimit, Nat.not_le.mpr hlimit]
  · simp only [hlimit, if_false, Except.ok.injEq, exists_eq_left', walk, true_and,
      Nat.not_lt.mp hlimit]
    rw [eq_comm (a := inner)]

/-- A path to a name leads into the place of the directory. -/
theorem locate_child_iff (h : IsPlainName name) {inner : Location} :
    fs.locate (directory.child name) = .ok inner ↔
      unusable? (directory.child name) = none ∧ name.utf8ByteSize ≤ nameLimit ∧
        ∃ place, fs.locateDirectory directory = .ok place ∧
          fs.nodeAt place = some .directory ∧ inner = name :: place := by
  rw [locate_eq_ok_iff]
  refine and_congr_right fun hu ↦ ?_
  by_cases hd : directory.text = ""
  · have hparts : partsOf (directory.child name) = [name] := by
      rw [Path.child_of_empty h hd, partsOf, Path.splitSlashes_of_not_mem h.slash,
        List.map_singleton, String.ofList_toList]
    have hstart : fs.start (directory.child name) = fs.workingDirectory := by
      rw [start, Path.child_of_empty h hd, Path.isAbsolute_of_isPlainName h]
      rfl
    rw [hparts, hstart, walk_name_eq_ok_iff h, locateDirectory, if_pos hd]
    simp
  · obtain ⟨front, hdirectory, hchild⟩ := partsOf_child h hd
    have hplace (place : Location) (hn : fs.nodeAt place = some .directory) :
        fs.locateDirectory directory = .ok place ↔
          fs.walk front (fs.start directory) = .ok place := by
      rw [locateDirectory, if_neg hd, locate_eq_ok_iff]
      simp only [unusable?_of_child h hd hu, true_and]
      rcases hdirectory with hdirectory | hdirectory
      · rw [hdirectory]
      · rw [hdirectory, walk_append_eq_ok_iff]
        constructor
        · rintro ⟨between, hwalk, hidle⟩
          obtain ⟨-, next, hs, hnext⟩ := walk_cons_eq_ok_iff.mp hidle
          cases hs
          cases hnext
          exact hwalk
        · intro hwalk
          exact ⟨place, hwalk, walk_idle (by simp) hn⟩
    rw [hchild, start_child h hd, walk_append_eq_ok_iff]
    simp only [walk_name_eq_ok_iff h]
    constructor
    · rintro ⟨place, hwalk, hlimit, hn, rfl⟩
      exact ⟨hlimit, place, (hplace place hn).mpr hwalk, hn, rfl⟩
    · rintro ⟨hlimit, place, hdir, hn, rfl⟩
      exact ⟨place, (hplace place hn).mp hdir, hlimit, hn, rfl⟩

/-- A name in a directory leads to what lies where the directory is. -/
theorem find_child_iff (h : IsPlainName name) {node : Node} :
    fs.find (directory.child name) = .ok node ↔
      unusable? (directory.child name) = none ∧ name.utf8ByteSize ≤ nameLimit ∧
        ∃ place, fs.locateDirectory directory = .ok place ∧
          fs.nodeAt (name :: place) = some node := by
  simp only [find_eq_ok_iff, locate_child_iff h]
  constructor
  · rintro ⟨inner, ⟨hu, hlimit, place, hdir, -, rfl⟩, hn⟩
    exact ⟨hu, hlimit, place, hdir, hn⟩
  · rintro ⟨hu, hlimit, place, hdir, hn⟩
    exact ⟨name :: place, ⟨hu, hlimit, place, hdir, nodeAt_parent hn, rfl⟩, hn⟩

/-- A path without a text leads to no file. -/
theorem toList_ne_nil_of_isFile {path : Path} (h : fs.isFile path = true) :
    path.text.toList ≠ [] := by
  intro he
  obtain ⟨place, -, hl, -⟩ := isFile_iff.mp h
  have hu := (locate_eq_ok_iff.mp hl).1
  simp [unusable?, String.toList_eq_nil_iff.mp he] at hu

/-- A path that goes on behind the path of a file leads to no file. -/
theorem not_isFile_inside {outer inner : Path} {rest : List Char} (hfile : fs.isFile outer = true)
    (h : inner.text.toList = outer.text.toList ++ '/' :: rest) : fs.isFile inner = false := by
  obtain ⟨place, file, hl, hn⟩ := isFile_iff.mp hfile
  obtain ⟨-, hwalk⟩ := locate_eq_ok_iff.mp hl
  have hstart : fs.start inner = fs.start outer := by
    obtain ⟨c, front, hfront⟩ := List.exists_cons_of_ne_nil (toList_ne_nil_of_isFile hfile)
    simp [start, Path.isAbsolute, h, hfront]
  rw [Bool.eq_false_iff]
  intro hinner
  obtain ⟨place', -, hl', -⟩ := isFile_iff.mp hinner
  obtain ⟨-, hwalk'⟩ := locate_eq_ok_iff.mp hl'
  rw [partsOf, h, Path.splitSlashes_append, List.map_append, hstart, walk_append_eq_ok_iff]
    at hwalk'
  obtain ⟨between, houter, hrest⟩ := hwalk'
  obtain rfl : place = between := Except.ok.inj (hwalk.symm.trans houter)
  -- there is a further part, and it asks for a directory
  cases hparts : Path.splitSlashes rest with
  | nil => exact Path.splitSlashes_ne_nil rest hparts
  | cons part more =>
    rw [hparts, List.map_cons, walk_cons_eq_ok_iff, hn] at hrest
    cases hrest.1

/-- The name of a file in a directory is listed there. -/
theorem exists_names_of_isFile_child (h : IsPlainName name) (hd : directory.text ≠ "")
    (hfile : fs.isFile (directory.child name) = true) :
    ∃ list, fs.names directory = .ok list ∧ name ∈ list := by
  obtain ⟨inner, file, hl, hn⟩ := isFile_iff.mp hfile
  obtain ⟨-, -, place, hplace, hparent, rfl⟩ := (locate_child_iff h).mp hl
  rw [locateDirectory, if_neg hd] at hplace
  refine ⟨fs.childNames place, ?_, mem_childNames_iff.mpr (by rw [hn]; rfl)⟩
  simp only [names, hplace, hparent]

/-- The names of a directory are listed where the path leads to one. -/
theorem names_eq_ok_iff {path : Path} {list : List String} :
    fs.names path = .ok list ↔
      ∃ place, fs.locate path = .ok place ∧ fs.nodeAt place = some .directory ∧
        fs.childNames place = list := by
  rw [names]
  cases fs.locate path with
  | error trouble => simp
  | ok place =>
    simp only [Except.ok.injEq, exists_eq_left']
    rcases fs.nodeAt place with _ | _ | _ <;> simp

end FileSystem

end LayeredConfig
