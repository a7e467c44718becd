import LayeredConfig.Proofs.Compilation.Stored
import LayeredConfig.Proofs.FileSystem.Writing
import LayeredConfig.Proofs.Signature.PathMaterial

/-!
# Signatures of contents

Under the content basis the bytes of each document follow the text of its path. Nothing stands
between them, so that bytes can read like a path and can pass from one document to the next. An edit
of one file shows in the material all the same: bytes of another length change the length of the
material once for each time the file is listed, and bytes of the same length leave everything else
in its place.
-/

namespace LayeredConfig

/-- The paths of documents, with the bytes that are read there. -/
abbrev Contents : Type := List (Path × ByteArray)

namespace Contents

variable {contents edited : Contents} {old new : ByteArray} {count : Nat} {fs : FileSystem}

/-- The parts that a signature of contents is made from. -/
def parts : Contents → List SignaturePart
  | [] => []
  | (path, bytes) :: rest => .path path :: .content bytes :: parts rest

/-- Every path leads to a file that has the bytes. -/
def HeldBy (contents : Contents) (fs : FileSystem) : Prop :=
  ∀ entry ∈ contents, fs.readBytes entry.1 = .ok entry.2

/-- What is read for a signature are the contents, in order. -/
theorem HeldBy.contentParts_eq (h : HeldBy contents fs) :
    contentParts fs (contents.map Prod.fst) = .ok (parts contents) := by
  induction contents with
  | nil => rfl
  | cons entry rest ih =>
    obtain ⟨hentry, hrest⟩ := List.forall_mem_cons.mp h
    rw [List.map_cons, contentParts, hentry]
    simp only [ih hrest]
    rfl

/-- The material of contents begins with the first path and its bytes. -/
theorem material_cons (path : Path) (bytes : ByteArray) (rest : Contents) :
    Signature.material (parts ((path, bytes) :: rest))
      = SignaturePart.bytes (.path path) ++
          (bytes.data.toList ++ Signature.material (parts rest)) := rfl

/-! ### Edits -/

/-- Some bytes were replaced by others in a number of places, and nothing else was changed. -/
inductive Edited (old new : ByteArray) : Contents → Contents → Nat → Prop
  | nil : Edited old new [] [] 0
  | kept (entry : Path × ByteArray) {contents edited : Contents} {count : Nat}
    (rest : Edited old new contents edited count) :
    Edited old new (entry :: contents) (entry :: edited) count
  | replaced (path : Path) {contents edited : Contents} {count : Nat}
    (rest : Edited old new contents edited count) :
    Edited old new ((path, old) :: contents) ((path, new) :: edited) (count + 1)

namespace Edited

private theorem map_fst_eq (h : Edited old new contents edited count) :
    edited.map Prod.fst = contents.map Prod.fst := by
  induction h with
  | nil => rfl
  | kept entry _ ih => rw [List.map_cons, List.map_cons, ih]
  | replaced path _ ih => rw [List.map_cons, List.map_cons, ih]

private theorem length_material (h : Edited old new contents edited count) :
    (Signature.material (parts edited)).length + count * old.size
      = (Signature.material (parts contents)).length + count * new.size := by
  induction h with
  | nil => rw [Nat.zero_mul, Nat.zero_mul]
  | kept entry _ ih =>
    rw [material_cons, material_cons]
    simp only [List.length_append]
    omega
  | replaced path _ ih =>
    rw [material_cons, material_cons]
    simp only [List.length_append, Array.length_toList, ByteArray.size_data, Nat.succ_mul]
    omega

private theorem count_eq_zero (h : Edited old new contents edited count) (hne : old ≠ new)
    (hsize : old.size = new.size)
    (hsame : Signature.material (parts contents) = Signature.material (parts edited)) :
    count = 0 := by
  induction h with
  | nil => rfl
  | kept entry _ ih =>
    rw [material_cons, material_cons] at hsame
    exact ih (List.append_cancel_left (List.append_cancel_left hsame))
  | replaced path _ _ =>
    rw [material_cons, material_cons] at hsame
    have hbytes := (List.append_inj (List.append_cancel_left hsame) hsize).1
    exact absurd (ByteArray.ext (Array.toList_inj.mp hbytes)) hne

private theorem material_ne (h : Edited old new contents edited count) (hne : old ≠ new)
    (hcount : 0 < count) :
    Signature.material (parts contents) ≠ Signature.material (parts edited) := by
  intro hsame
  have hlength := h.length_material
  rw [hsame, Nat.add_left_cancel_iff] at hlength
  have hsize : old.size = new.size := Nat.eq_of_mul_eq_mul_left hcount hlength
  have hzero := h.count_eq_zero hne hsize hsame
  omega

end Edited

/-- The contents after other bytes were stored at a place. -/
def replaceAt (contents : Contents) (fs : FileSystem) (place : Location) (bytes : ByteArray) :
    Contents :=
  contents.map fun (path, held) ↦ (path, if fs.locate path = .ok place then bytes else held)

private theorem HeldBy.edited_replaceAt {place : Location} (h : HeldBy contents fs)
    (hold : fs.nodeAt place = some (.file old)) (new : ByteArray) :
    Edited old new contents (replaceAt contents fs place new)
      (contents.countP fun entry ↦ fs.locate entry.1 = .ok place) := by
  induction contents with
  | nil => exact .nil
  | cons entry rest ih =>
    obtain ⟨hentry, hrest⟩ := List.forall_mem_cons.mp h
    rcases entry with ⟨path, held⟩
    by_cases hplace : fs.locate path = .ok place
    · obtain ⟨found, hfound, hnode⟩ := FileSystem.readBytes_eq_ok_iff.mp hentry
      obtain rfl : place = found := Except.ok.inj (hplace.symm.trans hfound)
      obtain rfl : old = held :=
        congrArg File.bytes (Node.file.inj (Option.some.inj (hold.symm.trans hnode)))
      rw [replaceAt, List.map_cons, List.countP_cons_of_pos (by simpa using hplace)]
      simp only [hplace, if_true]
      exact .replaced path (ih hrest)
    · rw [replaceAt, List.map_cons, List.countP_cons_of_neg (by simpa using hplace)]
      simp only [hplace, if_false]
      exact .kept (path, held) (ih hrest)

private theorem HeldBy.replaceAt {after : FileSystem} {target : Path} {place : Location}
    (h : HeldBy contents fs) (hwritten : fs.FileWritten after target new place) :
    HeldBy (replaceAt contents fs place new) after := by
  intro entry hentry
  obtain ⟨⟨path, held⟩, hmem, rfl⟩ := List.mem_map.mp hentry
  obtain ⟨found, hfound, hnode⟩ := FileSystem.readBytes_eq_ok_iff.mp (h _ hmem)
  refine FileSystem.readBytes_eq_ok_iff.mpr ⟨found, hwritten.locate hfound, ?_⟩
  dsimp only
  split
  · next hplace =>
    obtain rfl : place = found := Except.ok.inj (hplace.symm.trans hfound)
    exact hwritten.stored
  · next hplace =>
    rw [hwritten.elsewhere found (fun heq ↦ hplace (heq ▸ hfound)), hnode]

end Contents

/-! ### Compilations under the content basis -/

namespace Settings

open Document (Reference)

variable {contents edited : Contents} {signature : Signature}

/-- Some compilation under the content basis returned a signature for documents with the given paths
and bytes. -/
def ReturnedForContents (contents : Contents) (signature : Signature) : Prop :=
  ∃ (settings : Settings) (options : Options) (identifiers : List String) (fs : FileSystem)
    (sources : List Reference), settings.basis = .content ∧
      List.Forall₂ (Reference.Resolves fs settings.root) identifiers sources ∧
      sources.map Reference.path = contents.map Prod.fst ∧ contents.HeldBy fs ∧
      (settings.compile options identifiers fs).result = .ok signature

/-- A returned signature is that of the documents' contents. -/
theorem ReturnedForContents.eq_ofParts (h : ReturnedForContents contents signature) :
    signature = .ofParts contents.parts := by
  obtain ⟨_, _, _, _, _, hbasis, hresolved, hpaths, hheld, hresult⟩ := h
  have hsigning := sign_of_compile hresolved hresult
  rw [hbasis, SignatureBasis.sign, hpaths, hheld.contentParts_eq] at hsigning
  exact (Except.ok.inj hsigning).symm

/-- **An edited document changes the material** that a signature of contents is made from, however
often the document is listed. If the digests differ like the materials do, no signature that was
ever returned for the contents is returned for them after the edit. -/
theorem contentMaterial_ne_of_edited {old new : ByteArray} {count : Nat}
    (hedited : Contents.Edited old new contents edited count) (hcount : 0 < count)
    (hne : old ≠ new) {before after : FileSystem} (hbefore : contents.HeldBy before)
    (hafter : edited.HeldBy after) :
    contentParts before (contents.map Prod.fst) = .ok contents.parts ∧
      contentParts after (contents.map Prod.fst) = .ok edited.parts ∧
      Signature.material contents.parts ≠ Signature.material edited.parts ∧
      (Sha256.digest (Signature.material contents.parts)
          ≠ Sha256.digest (Signature.material edited.parts) →
        ∀ signature, ReturnedForContents contents signature →
          ¬ ReturnedForContents edited signature) := by
  refine ⟨hbefore.contentParts_eq, ?_, hedited.material_ne hne hcount, ?_⟩
  · rw [← hedited.map_fst_eq]
    exact hafter.contentParts_eq
  · intro hdigest signature hreturned hreturned'
    have hsame := hreturned.eq_ofParts.symm.trans hreturned'.eq_ofParts
    exact hdigest (Signature.ofDigest_injective hsame)

/-- The contents of one document that is listed twice. -/
def listedTwice : Contents :=
  [(⟨"./app.yaml"⟩, "a: 1\n".toUTF8), (⟨"./app.yaml"⟩, "a: 1\n".toUTF8)]

/-- The document with a comment added that reads like its path. -/
def editedDocument : FileSystem :=
  oneDocument.put "app.yaml" [] (.file "a: 1\n# ./app.yaml".toUTF8) rfl (by decide)

/-- A document that is listed twice has another signature after it was edited. -/
theorem contentMaterial_ne_of_edited_listedTwice :
    (compile { basis := .content } {} ["app", "app"] oneDocument).result
        = .ok (.ofParts listedTwice.parts) ∧
      (compile { basis := .content } {} ["app", "app"] editedDocument).result
        ≠ .ok (.ofParts listedTwice.parts) := by
  have hheld : listedTwice.HeldBy oneDocument := by
    intro entry hentry
    obtain rfl : entry = (⟨"./app.yaml"⟩, "a: 1\n".toUTF8) := by simpa [listedTwice] using hentry
    exact FileSystem.readBytes_eq_ok_iff.mpr ⟨["app.yaml"], by decide +kernel, rfl⟩
  have hwritten : oneDocument.FileWritten editedDocument ⟨"app.yaml"⟩
      "a: 1\n# ./app.yaml".toUTF8 ["app.yaml"] :=
    { workingDirectory := rfl
      located := by decide +kernel
      writable := by decide
      stored := FileSystem.nodeAt_put_self oneDocument "app.yaml" [] _ rfl (by decide)
      elsewhere := fun _ hother ↦
        FileSystem.nodeAt_put_of_ne oneDocument _ rfl (by decide) hother }
  have hcompiled : (compile { basis := .content } {} ["app", "app"] oneDocument).result
      = .ok (.ofParts listedTwice.parts) := by
    decide +kernel
  have hbefore : List.Forall₂ (Reference.Resolves oneDocument ⟨"."⟩) ["app", "app"]
      [⟨"app.yaml", ⟨"."⟩⟩, ⟨"app.yaml", ⟨"."⟩⟩] :=
    Reference.resolveAll_eq_ok_iff.mp (by decide +kernel)
  have hafter : List.Forall₂ (Reference.Resolves editedDocument ⟨"."⟩) ["app", "app"]
      [⟨"app.yaml", ⟨"."⟩⟩, ⟨"app.yaml", ⟨"."⟩⟩] :=
    Reference.resolveAll_eq_ok_iff.mp (by decide +kernel)
  have hedited := hheld.replaceAt hwritten
  have hold : oneDocument.nodeAt ["app.yaml"] = some (.file "a: 1\n".toUTF8) := rfl
  have hplaces := hheld.edited_replaceAt hold "a: 1\n# ./app.yaml".toUTF8
  obtain ⟨-, -, -, hreturned⟩ :=
    contentMaterial_ne_of_edited hplaces (by decide +kernel) (by decide) hheld hedited
  refine ⟨hcompiled, fun hresult ↦ ?_⟩
  exact hreturned (by decide +kernel) _
    ⟨{ basis := .content }, {}, ["app", "app"], oneDocument, _, rfl, hbefore, rfl, hheld, hcompiled⟩
    ⟨{ basis := .content }, {}, ["app", "app"], editedDocument, _, rfl, hafter, rfl, hedited,
      hresult⟩

end Settings

end LayeredConfig
