import LayeredConfig.Proofs.CommandLine.Reloading
import LayeredConfig.Proofs.Document.Identifier
import LayeredConfig.Proofs.Store.ClearedFiles

/-!
# Handles

A handle is the lead of signatures and exactly sixty-four hexadecimal digits; no other text is one.
With an extension that settings may have, a handle is a single plain part of a path. So it leads to
a file of that name in the directory of the store, and different handles lead to different files.

The main statement is `display_confined`: a word that is to be displayed is refused unless it is a
handle, and then no file but the one that it names has a bearing on what is displayed.
-/

namespace LayeredConfig

/-! ### The form of a handle -/

/-- The hexadecimal digits of either case. -/
def hexDigits : List Char := "0123456789abcdefABCDEF".toList

/-- A handle is the lead of signatures and sixty-four hexadecimal digits behind it. -/
def IsHandle (name : String) : Prop :=
  ∃ digits, name = "config." ++ String.ofList digits ∧ digits.length = 64 ∧
    ∀ c ∈ digits, c ∈ hexDigits

private theorem Characters.isHex_iff {c : Char} : isHex c = true ↔ c ∈ hexDigits := by
  constructor
  · intro h
    have hcases := h
    simp only [isHex, Char.isDigit, Bool.or_eq_true, Bool.and_eq_true, decide_eq_true_eq] at hcases
    have hbound : c ≤ 'f' := by
      rcases hcases with (hdigit | hlower) | hupper
      · exact Char.le_trans hdigit.2 (by decide)
      · exact hlower.2
      · exact Char.le_trans hupper.2 (by decide)
    have hlow : c.toNat < 128 :=
      Nat.lt_of_le_of_lt (UInt32.le_iff_toNat_le.mp hbound) (by decide)
    have all : ∀ n : Fin 128, isHex (Char.ofNat n) = true → Char.ofNat n ∈ hexDigits := by
      decide +kernel
    have hc := all ⟨c.toNat, hlow⟩
    simp only [Char.ofNat_toNat] at hc
    exact hc h
  · have all : hexDigits.all isHex = true := by decide +kernel
    exact List.all_eq_true.mp all c

private theorem Signature.parse?_eq_some_iff {text : String} {signature : Signature} :
    parse? text = some signature ↔ signature.name = text := by
  constructor
  · exact name_of_parse?
  · rintro rfl
    exact signature.parse?_name

/-- The handles are what is read as the name of a signature. -/
theorem isHandle_iff {name : String} :
    IsHandle name ↔ ∃ signature, Signature.parse? name = some signature := by
  simp only [Signature.parse?_eq_some_iff]
  constructor
  · rintro ⟨digits, rfl, hlength, hdigits⟩
    have hhex : digits.all Characters.isHex = true :=
      List.all_eq_true.mpr fun c hc ↦ Characters.isHex_iff.mpr (hdigits c hc)
    refine ⟨⟨digits, hlength, hhex⟩, String.toList_injective ?_⟩
    simp [Signature.name, Signature.lead]
  · rintro ⟨signature, rfl⟩
    refine ⟨signature.digits, String.toList_injective ?_, signature.length_digits, fun c hc ↦ ?_⟩
    · simp [Signature.name, Signature.lead]
    · exact Characters.isHex_iff.mp (List.all_eq_true.mp signature.isHex_digits c hc)

/-! ### What a file of a directory depends on -/

namespace FileSystem

open LayeredConfig.Path (IsPlainName)

variable {fs other : FileSystem} {directory : Path} {name : String}

/-- Two file systems have the same directories and the same file, or none, under a name in one of
them. What other files there are, and what is in them, may differ. -/
structure AgreeAt (fs other : FileSystem) (directory : Path) (name : String) : Prop where
  workingDirectory : other.workingDirectory = fs.workingDirectory
  directories : ∀ place, other.nodeAt place = some .directory ↔ fs.nodeAt place = some .directory
  named : ∀ place, fs.locateDirectory directory = .ok place →
    other.nodeAt (name :: place) = fs.nodeAt (name :: place)

namespace AgreeAt

/-- Agreement goes both ways. -/
theorem symm (h : fs.AgreeAt other directory name) : other.AgreeAt fs directory name where
  workingDirectory := h.workingDirectory.symm
  directories := fun place ↦ (h.directories place).symm
  named := fun place hplace ↦ (h.named place (locateDirectory_mono h.workingDirectory.symm
    (fun l ↦ (h.directories l).mp) hplace)).symm

private theorem readBytes (h : fs.AgreeAt other directory name) (hname : IsPlainName name)
    {bytes : ByteArray} (hread : fs.readBytes (directory.child name) = .ok bytes) :
    other.readBytes (directory.child name) = .ok bytes := by
  rw [readBytes_iff_find] at hread ⊢
  obtain ⟨hu, hlimit, place, hplace, hn⟩ := (find_child_iff hname).mp hread
  have hplace' : other.locateDirectory directory = .ok place :=
    locateDirectory_mono h.workingDirectory (fun l ↦ (h.directories l).mpr) hplace
  exact (find_child_iff hname).mpr
    ⟨hu, hlimit, place, hplace', (h.named place hplace).trans hn⟩

end AgreeAt

end FileSystem

/-! ### What a handle leads to -/

namespace Store

open LayeredConfig.Path (IsPlainName)

variable {store : Store} {fs other : FileSystem} {name : String} {signature : Signature}

/-- The file name that a handle stands for. -/
def component (store : Store) (name : String) : String := name ++ "." ++ store.extension

/-- What is loaded are the bytes of the file where the path of the artifact leads. -/
theorem load_eq_ok_iff {text : String} :
    store.load fs signature = .ok text ↔
      fs.readBytes (store.artifactPath signature) = .ok text.toUTF8 := by
  have hread : store.load fs signature = .ok text ↔
      fs.readText (store.artifactPath signature) = .ok text := by
    rw [load]
    cases fs.readText (store.artifactPath signature) <;> simp [Except.mapError]
  rw [hread]
  exact ⟨FileSystem.readBytes_of_readText, FileSystem.readText_of_readBytes⟩

private theorem failure_of_load {failure : Failure} (h : store.load fs signature = .error failure) :
    failure = .unreadable (store.artifactPath signature) := by
  obtain ⟨trouble, -, rfl⟩ := mapError_eq_error_iff.mp h
  rfl

private theorem load_congr
    (h : ∀ bytes, fs.readBytes (store.artifactPath signature) = .ok bytes ↔
      other.readBytes (store.artifactPath signature) = .ok bytes) :
    store.load fs signature = store.load other signature := by
  cases hload : store.load fs signature with
  | ok text =>
    have hbytes := load_eq_ok_iff.mp hload
    exact (load_eq_ok_iff.mpr ((h _).mp hbytes)).symm
  | error failure =>
    cases hload' : store.load other signature with
    | ok text =>
      have hbytes := load_eq_ok_iff.mp hload'
      rw [load_eq_ok_iff.mpr ((h _).mpr hbytes)] at hload
      cases hload
    | error failure' => rw [failure_of_load hload, failure_of_load hload']

/-- A name leads to one plain part of a path behind the directory of the store. Whatever files there
are, the path ends at that name in that directory, and what is loaded is the file there. -/
structure LeadsInside (store : Store) (name : String) (signature : Signature) : Prop where
  named : signature.name = name
  plain : IsPlainName (store.component name)
  backslash : '\\' ∉ (store.component name).toList
  joined : store.artifactPath signature = store.directory.child (store.component name)
  last : (store.artifactPath signature).fileName? = some (store.component name)
  inside : ∀ (fs : FileSystem) place, fs.locate (store.artifactPath signature) = .ok place →
    ∃ directory, fs.locateDirectory store.directory = .ok directory ∧
      fs.nodeAt directory = some .directory ∧ place = store.component name :: directory
  loaded : ∀ fs text, store.load fs signature = .ok text ↔
    ∃ directory, fs.locateDirectory store.directory = .ok directory ∧
      fs.locate (store.artifactPath signature) = .ok (store.component name :: directory) ∧
      fs.nodeAt (store.component name :: directory) = some (.file text.toUTF8)

private theorem leadsInside_of_parse?
    (hextension : Settings.isPlainExtension store.extension = true)
    (h : Signature.parse? name = some signature) : store.LeadsInside name signature := by
  obtain rfl := Signature.name_of_parse? h
  have hplain := store.isPlainName_fileName hextension signature
  refine ⟨rfl, hplain, store.not_mem_fileName hextension signature (.inr rfl), rfl,
    Path.fileName?_child hplain, fun fs place hl ↦ ?_, fun fs text ↦ ?_⟩
  · obtain ⟨-, -, directory, hdirectory, hn, rfl⟩ := (FileSystem.locate_child_iff hplain).mp hl
    exact ⟨directory, hdirectory, hn, rfl⟩
  · rw [load_eq_ok_iff, FileSystem.readBytes_eq_ok_iff]
    constructor
    · rintro ⟨place, hl, hn⟩
      obtain ⟨-, -, directory, hdirectory, -, rfl⟩ := (FileSystem.locate_child_iff hplain).mp hl
      exact ⟨directory, hdirectory, hl, hn⟩
    · rintro ⟨directory, -, hl, hn⟩
      exact ⟨_, hl, hn⟩

namespace LeadsInside

variable {name' : String} {signature' : Signature}

private theorem component_ne (hne : name ≠ name') :
    store.component name ≠ store.component name' := by
  intro h
  have htext := congrArg String.toList h
  simp only [component, String.toList_append] at htext
  exact hne (String.toList_injective (List.append_cancel_right (List.append_cancel_right htext)))

private theorem apart (h : store.LeadsInside name signature)
    (h' : store.LeadsInside name' signature')
    (hne : name ≠ name') :
    store.artifactPath signature ≠ store.artifactPath signature' ∧
      ∀ (fs : FileSystem) place, fs.locate (store.artifactPath signature) = .ok place →
        fs.locate (store.artifactPath signature') ≠ .ok place := by
  constructor
  · intro hpath
    have hlast := h.last
    rw [hpath, h'.last] at hlast
    exact component_ne hne (Option.some.inj hlast).symm
  · intro fs place hl hl'
    obtain ⟨directory, -, -, rfl⟩ := h.inside fs place hl
    obtain ⟨directory', -, -, hplace⟩ := h'.inside fs _ hl'
    exact component_ne hne (List.cons.inj hplace).1

private theorem load_congr (h : store.LeadsInside name signature)
    (hagree : fs.AgreeAt other store.directory (store.component name)) :
    store.load fs signature = store.load other signature := by
  refine Store.load_congr fun bytes ↦ ?_
  rw [h.joined]
  exact ⟨hagree.readBytes h.plain, hagree.symm.readBytes h.plain⟩

end LeadsInside

end Store

/-! ### What is displayed -/

namespace CommandLine

variable {settings : Settings} {fs other : FileSystem} {directory : Option Path} {word : String}

private theorem Command.run_display_of_not_isHandle (h : ¬ IsHandle word) :
    (Command.display word directory).run settings fs = .failed (.badHandle word) fs := by
  have hnone : Signature.parse? word = none := by
    rw [Option.eq_none_iff_forall_ne_some]
    exact fun signature hsignature ↦ h (isHandle_iff.mpr ⟨signature, hsignature⟩)
  simp only [Command.run, hnone]

private theorem Command.run_display_congr
    (h : ∀ signature, Signature.parse? word = some signature →
      (storeAt settings directory).load fs signature
        = (storeAt settings directory).load other signature) :
    (Command.display word directory).run settings other
      = { (Command.display word directory).run settings fs with files := other } := by
  cases hsignature : Signature.parse? word with
  | none =>
    simp only [Command.run, hsignature]
    rfl
  | some signature =>
    simp only [Command.run, hsignature, h signature hsignature]
    cases (storeAt settings directory).load other signature <;> rfl

/-- **Displaying is confined to the file of a handle.** Under settings that pass their check, a word
is a handle exactly when it is read as the name of a signature, and any other word is refused. The
path of a handle is the directory with one plain part behind it, and the paths of different handles
are different. What is displayed depends on no other file, and no file is changed. -/
theorem display_confined (hvalid : settings.validate = .ok settings) (directory : Option Path)
    (word : String) :
    (IsHandle word ↔ ∃ signature, Signature.parse? word = some signature) ∧
    (¬ IsHandle word → ∀ fs,
      (Command.display word directory).run settings fs = .failed (.badHandle word) fs) ∧
    (∀ signature, Signature.parse? word = some signature →
      (storeAt settings directory).LeadsInside word signature ∧
      ∀ word' signature', Signature.parse? word' = some signature' → word ≠ word' →
        (storeAt settings directory).artifactPath signature
            ≠ (storeAt settings directory).artifactPath signature' ∧
          ∀ (fs : FileSystem) place,
            fs.locate ((storeAt settings directory).artifactPath signature) = .ok place →
              fs.locate ((storeAt settings directory).artifactPath signature') ≠ .ok place) ∧
    ∀ fs other : FileSystem, fs.AgreeAt other (storeAt settings directory).directory
        ((storeAt settings directory).component word) →
      (Command.display word directory).run settings other
        = { (Command.display word directory).run settings fs with files := other } := by
  have hextension : Settings.isPlainExtension (storeAt settings directory).extension = true :=
    Settings.isPlainExtension_of_validate hvalid
  have hleads {name signature} (h : Signature.parse? name = some signature) :
      (storeAt settings directory).LeadsInside name signature :=
    Store.leadsInside_of_parse? hextension h
  refine ⟨isHandle_iff, fun hword fs ↦ Command.run_display_of_not_isHandle hword,
    fun signature h ↦ ⟨hleads h, fun word' signature' h' ↦ (hleads h).apart (hleads h')⟩,
    fun fs other hagree ↦ Command.run_display_congr fun signature h ↦ ?_⟩
  exact (hleads h).load_congr hagree

/-- A signature whose digits are all the same letter. -/
def letterSignature : Signature := ⟨List.replicate 64 'a', by decide, by decide⟩

/-- The signature with that letter in upper case. -/
def capitalSignature : Signature := ⟨List.replicate 64 'A', by decide, by decide⟩

/-- An artifact with the extension `..`, and a file outside of the directory of the store. -/
def besideSecret (secret : String) : FileSystem :=
  { nodes :=
      [(["secret"], .file secret.toUTF8), (["cache"], .directory),
        ([letterSignature.name ++ "...", "cache"], .file "$x = 1;".toUTF8)]
    workingDirectory := []
    distinct := by simp
    enclosed := by simp }

private theorem agreeAt_besideSecret (secret secret' : String) {directory : Path} {name : String}
    (hname : name ≠ "secret") :
    (besideSecret secret).AgreeAt (besideSecret secret') directory name := by
  have helsewhere (place : Location) (hplace : place ≠ ["secret"]) :
      (besideSecret secret').nodeAt place = (besideSecret secret).nodeAt place := by
    cases place with
    | nil => rfl
    | cons first outer =>
      simp [FileSystem.nodeAt, besideSecret, FileSystem.find?, Ne.symm hplace]
  refine ⟨rfl, fun place ↦ ?_, fun place _ ↦ helsewhere _ (by simp [hname])⟩
  by_cases hplace : place = ["secret"]
  · simp [hplace, FileSystem.nodeAt, besideSecret, FileSystem.find?]
  · rw [helsewhere place hplace]

/-- An extension of two dots does not lead out of the directory, and neither does a word that is no
handle. The case of the digits matters, and a file outside has no bearing on what is displayed. -/
theorem display_confined_dottedExtension :
    ¬ IsHandle "config./../../secret" ∧
      (Command.display "config./../../secret" none).run { extension := ".." } (besideSecret "1")
        = .failed (.badHandle "config./../../secret") (besideSecret "1") ∧
      (storeAt { extension := ".." } none).load (besideSecret "1") letterSignature
        = .ok "$x = 1;" ∧
      (storeAt { extension := ".." } none).artifactPath letterSignature
        ≠ (storeAt { extension := ".." } none).artifactPath capitalSignature ∧
      (Command.display letterSignature.name none).run { extension := ".." } (besideSecret "2")
        = { (Command.display letterSignature.name none).run { extension := ".." }
            (besideSecret "1") with files := besideSecret "2" } := by
  have hvalid : Settings.validate { extension := ".." } = .ok { extension := ".." } := by decide
  obtain ⟨hother, hrefused, -, -⟩ := display_confined hvalid none "config./../../secret"
  obtain ⟨-, -, hhandle, hagree⟩ := display_confined hvalid none letterSignature.name
  have hnone : Signature.parse? "config./../../secret" = none := by decide +kernel
  have hword : ¬ IsHandle "config./../../secret" := by
    rw [hother, hnone]
    simp
  obtain ⟨hleads, hapart⟩ := hhandle letterSignature letterSignature.parse?_name
  have hne : letterSignature.name ≠ capitalSignature.name := by decide +kernel
  refine ⟨hword, hrefused hword _, ?_, (hapart _ _ capitalSignature.parse?_name hne).1,
    hagree _ _ (agreeAt_besideSecret "1" "2" (by decide +kernel))⟩
  exact (hleads.loaded _ _).mpr ⟨["cache"], by decide +kernel, by decide +kernel, by decide +kernel⟩

end CommandLine

end LayeredConfig
