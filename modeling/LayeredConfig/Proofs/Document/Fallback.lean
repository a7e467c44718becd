import LayeredConfig.Proofs.Document.Identifier

/-!
# Default documents and their names

Whether a document is the default one is told from its name alone. A default document is always
told; so is a document that is asked for by a name which reads like that of a default one, even when
it was found at once. Such names are `d` and those that begin with `d.`, and there are no others.
-/

namespace LayeredConfig.Document

/-- A name reads like that of a default document once it has an extension. -/
def ReadsAsDefault (name : String) : Prop :=
  name = "d" ∨ defaultLead.toList <+: name.toList

private theorem lead_withExtension_iff {name : String} :
    defaultLead.toList <+: (withExtension name).toList ↔ ReadsAsDefault name := by
  rw [ReadsAsDefault]
  rcases withExtension_cases name with ⟨hknown, hname⟩ | ⟨-, hname⟩
  · rw [hname]
    refine ⟨.inr, fun h ↦ h.resolve_left ?_⟩
    -- there is no extension in a single letter
    rintro rfl
    obtain ⟨extension, -, hextension⟩ := hknown
    cases hextension
  · rw [hname, toList_extended, ← String.toList_inj]
    -- the dot behind the name is the second character of the lead when the name is one letter
    match name.toList with
    | [] => simp [defaultLead]
    | [c] => simp [defaultLead, documentExtension, eq_comm]
    | c :: e :: rest => simp [defaultLead]

namespace Reference

variable {fs : FileSystem} {root : Path} {identifier : String} {reference : Reference}

/-- A document is taken for a default one when its name begins like that of one. -/
theorem isDefault_iff :
    reference.isDefault = true ↔ defaultLead.toList <+: reference.name.toList := by
  rw [isDefault, Option.isSome_iff_exists]
  simp only [Characters.dropPrefix?_eq_some_iff]
  exact ⟨fun ⟨rest, h⟩ ↦ ⟨rest, h.symm⟩, fun ⟨rest, h⟩ ↦ ⟨rest, h.symm⟩⟩

private theorem isDefault_fallback (primary : Reference) : primary.fallback.isDefault = true := by
  rw [isDefault_iff, fallback, defaultName, String.toList_append]
  exact List.prefix_append _ _

/-- What an identifier stands for is the default document, as the document that it asks for first is
no file. -/
def FellBack (fs : FileSystem) (root : Path) (identifier : String) (reference : Reference) : Prop :=
  ∃ primary, primary? root ⟨identifier⟩ = some primary ∧ fs.isFile primary.path = false ∧
    fs.isFile primary.fallback.path = true ∧ reference = primary.fallback

/-- **A document that was found is taken for a default one exactly when resolution fell back to it
or the identifier's own name reads like that of a default document.** -/
theorem isDefault_iff_fellBack (h : resolve fs root identifier = .ok reference) :
    ∃ name, Path.fileName? ⟨identifier⟩ = some name ∧
      (reference.isDefault = true ↔
        FellBack fs root identifier reference ∨ ReadsAsDefault name) := by
  cases resolve_eq_ok_iff.mp h with
  | primary hprimary hfile =>
    obtain ⟨name, hname, rfl⟩ := Option.map_eq_some_iff.mp hprimary
    refine ⟨name, hname, ?_⟩
    have hnot : ¬ FellBack fs root identifier
        ⟨withExtension name, directoryOf root ⟨identifier⟩⟩ := by
      rintro ⟨primary, hsame, hnone, -⟩
      rw [hprimary] at hsame
      rw [← Option.some.inj hsame, hfile] at hnone
      cases hnone
    rw [isDefault_iff, lead_withExtension_iff]
    exact ⟨.inr, fun hor ↦ hor.resolve_left hnot⟩
  | fallback hprimary hnone hfile =>
    obtain ⟨name, hname, -⟩ := Option.map_eq_some_iff.mp hprimary
    refine ⟨name, hname, ?_⟩
    exact ⟨fun _ ↦ .inl ⟨_, hprimary, hnone, hfile, rfl⟩, fun _ ↦ isDefault_fallback _⟩

/-- A default document in a directory, and a document that is named by a single letter. -/
def letteredDocuments : FileSystem :=
  { nodes := [(["d.app.yaml", "env"], .file "a: 0\n".toUTF8), (["env"], .directory),
      (["d.yaml"], .file "a: 1\n".toUTF8)]
    workingDirectory := []
    distinct := by decide
    enclosed := by simp }

/-- The name of the document that was found shows that resolution fell back to it. -/
theorem isDefault_iff_fellBack_lettered :
    resolve letteredDocuments ⟨"."⟩ "env/app" = .ok ⟨"d.app.yaml", ⟨"./env"⟩⟩ ∧
      FellBack letteredDocuments ⟨"."⟩ "env/app" ⟨"d.app.yaml", ⟨"./env"⟩⟩ := by
  have hresolve : resolve letteredDocuments ⟨"."⟩ "env/app" = .ok ⟨"d.app.yaml", ⟨"./env"⟩⟩ := by
    decide +kernel
  obtain ⟨name, hname, hiff⟩ := isDefault_iff_fellBack hresolve
  obtain rfl : "app" = name := Option.some.inj hname
  have hplain : ¬ ReadsAsDefault "app" := by
    unfold ReadsAsDefault
    decide
  exact ⟨hresolve, (hiff.mp (by decide)).resolve_right hplain⟩

/-- A document that is named by the letter `d` is taken for a default one, though it was found at
once. -/
theorem isDefault_without_fallback :
    resolve letteredDocuments ⟨"."⟩ "d" = .ok ⟨"d.yaml", ⟨"."⟩⟩ ∧
      letteredDocuments.isFile ⟨"./d.yaml"⟩ = true ∧
      isDefault ⟨"d.yaml", ⟨"."⟩⟩ = true ∧
      ¬ FellBack letteredDocuments ⟨"."⟩ "d" ⟨"d.yaml", ⟨"."⟩⟩ := by
  refine ⟨by decide +kernel, by decide +kernel, by decide, ?_⟩
  rintro ⟨primary, hprimary, hnone, -⟩
  rw [← Option.some.inj hprimary] at hnone
  exact absurd hnone (by decide +kernel)

end Reference

end LayeredConfig.Document
