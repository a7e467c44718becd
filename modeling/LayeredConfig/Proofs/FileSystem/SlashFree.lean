import LayeredConfig.Proofs.FileSystem.Naming
import LayeredConfig.Proofs.FileSystem.Removal
import LayeredConfig.Proofs.FileSystem.Writing

/-!
# Names without slashes

No file or directory has a slash in its name. It stays like that whatever is made, written, moved or
removed: a new name is a part of a path, and paths are split at slashes.
-/

namespace LayeredConfig

private theorem Path.not_mem_of_mem_splitSlashes {text part : List Char}
    (h : part ∈ splitSlashes text) :
    '/' ∉ part := by
  induction text generalizing part with
  | nil =>
    obtain rfl := List.mem_singleton.mp h
    exact List.not_mem_nil
  | cons c rest ih =>
    rw [splitSlashes] at h
    split at h
    · rcases List.mem_cons.mp h with rfl | h
      · exact List.not_mem_nil
      · exact ih h
    · next hc =>
      split at h
      · next hnil => exact absurd hnil (splitSlashes_ne_nil rest)
      · next first more hparts =>
        rw [hparts] at ih
        rcases List.mem_cons.mp h with rfl | h
        · rw [List.mem_cons, not_or]
          exact ⟨Ne.symm hc, ih List.mem_cons_self⟩
        · exact ih (List.mem_cons_of_mem _ h)

namespace FileSystem

variable {fs : FileSystem} {path : Path}

/-- No name that is listed anywhere has a slash in it. -/
def SlashFree (fs : FileSystem) : Prop :=
  ∀ entry ∈ fs.nodes, ∀ name ∈ entry.1, '/' ∉ name.toList

/-- The last part of a path has no slash. -/
theorem not_mem_of_destination {parts : List String} {origin parent : Location} {name : String}
    (hparts : ∀ part ∈ parts, part ∈ partsOf path)
    (h : fs.destination parts origin = .ok (name, parent)) : '/' ∉ name.toList := by
  have hmem : name ∈ parts := by
    rw [destination] at h
    split at h
    · cases h
    · next last before hreverse =>
      have hlast : last ∈ parts := by
        rw [← List.mem_reverse, hreverse]
        exact List.mem_cons_self
      split at h
      · cases h
      · split at h
        · cases h
        · split at h
          · cases h
          · obtain ⟨rfl, -⟩ := Prod.mk.inj (Except.ok.inj h)
            exact hlast
  obtain ⟨part, hpart, rfl⟩ := List.mem_map.mp (hparts name hmem)
  rw [String.toList_ofList]
  exact Path.not_mem_of_mem_splitSlashes hpart

namespace SlashFree

/-- What lies somewhere has a name without slashes. -/
theorem of_nodeAt (h : fs.SlashFree) {name : String} {place : Location} {node : Node}
    (hn : fs.nodeAt (name :: place) = some node) : '/' ∉ name.toList :=
  h _ (mem_of_find? hn) name List.mem_cons_self

/-- A node may be put under a name without slashes. -/
theorem put (h : fs.SlashFree) {name : String} {parent : Location} {node : Node}
    (hname : '/' ∉ name.toList) (hp : fs.nodeAt parent = some .directory)
    (hn : fs.nodeAt (name :: parent) ≠ some .directory) :
    (fs.put name parent node hp hn).SlashFree := by
  have hparent : ∀ outer ∈ parent, '/' ∉ outer.toList := by
    rcases mem_of_nodeAt hp with rfl | hmem
    · nofun
    · exact h _ hmem
  intro entry hentry
  rcases List.mem_cons.mp hentry with rfl | hentry
  · exact List.forall_mem_cons.mpr ⟨hname, hparent⟩
  · exact h entry (List.mem_filter.mp hentry).1

/-- Anything may be erased. -/
theorem erase (h : fs.SlashFree) (place : Location) : (fs.erase place).SlashFree :=
  fun entry hentry ↦ h entry (List.mem_filter.mp hentry).1

private theorem writeFile (h : fs.SlashFree) {file : File} {written : FileSystem}
    (hw : fs.writeFile path file = .ok written) : written.SlashFree := by
  obtain ⟨name, parent, hp, hn, -, hdest, -, rfl⟩ := writeFile_eq_put hw
  exact h.put (not_mem_of_destination (fun _ hpart ↦ hpart) hdest) hp hn

/-- A file may be moved. -/
theorem moveFile (h : fs.SlashFree) {target : Path} {moved : FileSystem}
    (hm : fs.moveFile path target = .ok moved) : moved.SlashFree := by
  rw [FileSystem.moveFile] at hm
  split at hm
  · cases hm
  · split at hm
    · cases hm
    · cases hm
    · split at hm
      · cases hm
      · exact (h.erase _).writeFile hm

/-- A directory may be made. -/
theorem makeDirectory (h : fs.SlashFree) {made : FileSystem}
    (hm : fs.makeDirectory path = .ok made) : made.SlashFree := by
  obtain ⟨name, parent, hp, hn, -, hdest, rfl⟩ := makeDirectory_eq_put hm
  have hparts : ∀ part ∈ trimmedParts path, part ∈ partsOf path := by
    intro part hpart
    obtain ⟨idle, heq, -⟩ := exists_partsOf_eq path
    rw [heq]
    exact List.mem_append_left idle hpart
  exact h.put (not_mem_of_destination hparts hdest) hp _

/-- A file may be removed. -/
theorem removeFile (h : fs.SlashFree) {fewer : FileSystem}
    (hr : fs.removeFile path = .ok fewer) : fewer.SlashFree := by
  obtain ⟨place, file, -, -, rfl⟩ := removeFile_eq_erase hr
  exact h.erase place

end SlashFree

end FileSystem

end LayeredConfig
