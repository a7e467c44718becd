import LayeredConfig.CommandLine.Run
import LayeredConfig.Proofs.Results
import LayeredConfig.Proofs.Store.Writing

/-!
# Settings after a compilation

Settings that can be used name artifacts by a plain extension, so that the settings file of the
working directory is never an artifact. An artifact that is added leaves all settings as they were,
unless it replaces the settings file that was named. Then there are none, because an artifact opens
with a comment that settings cannot open with.
-/

namespace LayeredConfig

/-! ### Texts that are no settings -/

namespace Toml

private theorem line_of_slash (rest : List Char) : line ('/' :: rest) = .error .malformed := by
  have hgap : skipGap ('/' :: rest) = '/' :: rest := rfl
  have hpart : keyPart ('/' :: rest) = .error .malformed := rfl
  have hkey : key ('/' :: rest) = .error .malformed := by
    rw [key, depthLimit, keyParts, hgap, hpart]
  rw [line, hgap]
  simp [newline?, hkey]

private theorem parse_of_slash {text : String} (h : text.toList.head? = some '/') :
    parse text = .error .malformed := by
  obtain ⟨rest, hrest⟩ := List.head?_eq_some_iff.mp h
  have hlines : readLines (('/' :: rest).length + 1) [] [] ('/' :: rest) = .error .malformed := by
    rw [readLines, line_of_slash]
    rfl
  rw [parse, hrest]
  exact hlines

end Toml

namespace Settings

variable {fs : FileSystem} {path directory : Path} {settings : Settings}

/-! ### Usable settings -/

/-- Settings that pass the check name artifacts by a plain extension. -/
theorem isPlainExtension_of_validate {checked : Settings} (h : validate checked = .ok settings) :
    isPlainExtension settings.extension = true := by
  rw [validate] at h
  split at h
  · cases h
  · next hplain =>
    split at h
    · cases h
    · rw [← Except.ok.inj h]
      simpa using hplain

private theorem isPlainExtension_of_parse {text : String} (h : parse text = .ok settings) :
    isPlainExtension settings.extension = true := by
  rw [parse] at h
  split at h
  · cases h
  · split at h
    · exact isPlainExtension_of_validate h
    · split at h
      · cases h
      · exact isPlainExtension_of_validate h

/-- The settings of a file are those of its text. -/
theorem load_eq_ok_iff :
    load fs path = .ok settings ↔
      ∃ text, fs.readText path = .ok text ∧ parse text = .ok settings := by
  rw [load]
  cases fs.readText path with
  | error trouble => simp
  | ok text => simp [mapError_eq_ok_iff]

/-- The settings of a directory are those of its settings file, or the defaults without one. -/
theorem discover_eq_ok_iff :
    discover fs directory = .ok settings ↔
      fs.isFile (directory.child fileName) = true ∧
          load fs (directory.child fileName) = .ok settings ∨
        fs.isFile (directory.child fileName) = false ∧ settings = {} := by
  rw [discover]
  cases fs.isFile (directory.child fileName) <;> simp [eq_comm]

/-- The name of a settings file is a plain name. -/
theorem isPlainName_fileName : Path.IsPlainName fileName :=
  ⟨by decide, by decide, by decide, by decide⟩

/-- Settings of a file name artifacts by a plain extension. -/
theorem isPlainExtension_of_load (h : load fs path = .ok settings) :
    isPlainExtension settings.extension = true := by
  obtain ⟨text, -, hparse⟩ := load_eq_ok_iff.mp h
  exact isPlainExtension_of_parse hparse

/-- Settings of a directory name artifacts by a plain extension. -/
theorem isPlainExtension_of_discover (h : discover fs directory = .ok settings) :
    isPlainExtension settings.extension = true := by
  rcases discover_eq_ok_iff.mp h with ⟨-, hload⟩ | ⟨-, rfl⟩
  · exact isPlainExtension_of_load hload
  · decide

private theorem load_congr {other : FileSystem} (h : other.find path = fs.find path) :
    load other path = load fs path := by
  rw [load, load, FileSystem.readText, FileSystem.readText, FileSystem.readBytes,
    FileSystem.readBytes, h]

private theorem parse_of_slash {text : String} (h : text.toList.head? = some '/') :
    parse text = .error (.malformed .malformed) := by
  rw [parse, Toml.parse_of_slash h]

end Settings

private theorem Artifact.head?_text (artifact : Artifact) :
    artifact.text.toList.head? = some '/' := by
  have hopening : "/*\n * This file is compiled from the following ".toList.head? = some '/' := by
    decide
  rw [Artifact.text, Code.renderArtifact, String.toList_ofList]
  unfold Code.header
  simp only [List.append_assoc, List.head?_append, hopening, Option.some_or]

/-! ### Settings that are read again -/

namespace Store.Added

variable {store : Store} {before after : FileSystem} {signature : Signature} {text : String}
  {place : Location} {settings : Settings}

/-- The settings of a file are the same unless the artifact replaces it. -/
theorem load_settings (h : store.Added before after signature text place) {file : Path}
    (hload : Settings.load before file = .ok settings) (hne : before.locate file ≠ .ok place) :
    Settings.load after file = .ok settings := by
  obtain ⟨content, hcontent, -⟩ := Settings.load_eq_ok_iff.mp hload
  have hfind := FileSystem.readBytes_iff_find.mp (FileSystem.readBytes_of_readText hcontent)
  rw [← hload]
  exact Settings.load_congr ((h.find_elsewhere hfind hne).trans hfind.symm)

/-- A file that the artifact replaces holds no settings any more. -/
theorem load_replaced {artifact : Artifact}
    (h : store.Added before after signature artifact.text place) {file : Path}
    (hfile : before.locate file = .ok place) :
    Settings.load after file = .error (.inFile file (.malformed .malformed)) := by
  have hbytes : after.readBytes file = .ok artifact.text.toUTF8 :=
    FileSystem.readBytes_eq_ok_iff.mpr ⟨place, h.locate hfile, h.stored⟩
  rw [Settings.load, FileSystem.readText_of_readBytes hbytes]
  simp only [Settings.parse_of_slash artifact.head?_text]
  rfl

private theorem locate_fileName_ne (h : store.Added before after signature text place)
    (hextension : Settings.isPlainExtension store.extension = true) (fs : FileSystem)
    (directory : Path) : fs.locate (directory.child Settings.fileName) ≠ .ok place := by
  intro hl
  obtain ⟨-, -, parent, -, -, hartifact⟩ := (FileSystem.locate_child_iff
    (store.isPlainName_fileName hextension signature)).mp h.located
  obtain ⟨-, -, parent', -, -, hsettings⟩ := (FileSystem.locate_child_iff
    Settings.isPlainName_fileName).mp hl
  -- the names part behind their first three letters
  have hname := congrArg String.toList (List.cons.inj (hartifact.symm.trans hsettings)).1
  simp [fileName, Signature.name, Signature.lead, Settings.fileName] at hname

/-- The settings of a directory are the same if its path has no two dots. -/
theorem discover_settings (h : store.Added before after signature text place)
    (hextension : Settings.isPlainExtension store.extension = true) {directory : Path}
    (hdots : ".." ∉ FileSystem.partsOf directory)
    (hdiscover : Settings.discover before directory = .ok settings) :
    Settings.discover after directory = .ok settings := by
  rcases Settings.discover_eq_ok_iff.mp hdiscover with ⟨hfile, hload⟩ | ⟨habsent, hdefault⟩
  · have hne := h.locate_fileName_ne hextension before directory
    exact Settings.discover_eq_ok_iff.mpr (.inl
      ⟨h.isFile_elsewhere hfile hne, h.load_settings hload hne⟩)
  · refine Settings.discover_eq_ok_iff.mpr (.inr ⟨?_, hdefault⟩)
    rw [Bool.eq_false_iff] at habsent ⊢
    exact fun hfile ↦ habsent (h.isFile_of_steady
      (FileSystem.steady_child Settings.isPlainName_fileName hdots) hfile
      (h.locate_fileName_ne hextension after directory))

end Store.Added

end LayeredConfig
