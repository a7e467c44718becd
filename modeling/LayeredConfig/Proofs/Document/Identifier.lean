import LayeredConfig.Compiler
import LayeredConfig.Proofs.Document.Resolution
import LayeredConfig.Proofs.FileSystem.Naming

/-!
# Spellings of an identifier

The last part of an identifier may be written with the extension of documents or without it. Either
way it asks for the same file in the same directory: the file name is all that the extension is
looked for in, and the directory does not depend on it. So what identifiers resolve to, and all that
is made of it, is the same for both spellings.
-/

namespace LayeredConfig

/-! ### The last part of a path -/

namespace Path

/-- What may stand before the last part of a path: nothing, or a text that ends in a slash. -/
def IsFront (front : List Char) : Prop := front = [] ∨ ∃ outer, front = outer ++ ['/']

private theorem IsFront.tail {c : Char} {front : List Char} (h : IsFront (c :: front)) :
    IsFront front := by
  obtain ⟨outer, houter⟩ := h.resolve_left (by simp)
  cases outer with
  | nil => exact .inl (List.cons.inj houter).2
  | cons d outer => exact .inr ⟨outer, (List.cons.inj houter).2⟩

private theorem splitSlashes_front_append {front name : List Char} (hfront : IsFront front)
    (hname : '/' ∉ name) :
    splitSlashes (front ++ name) = (splitSlashes front).dropLast ++ [name] := by
  rcases hfront with rfl | ⟨outer, rfl⟩
  · exact splitSlashes_of_not_mem hname
  · have hslash : splitSlashes (outer ++ ['/']) = splitSlashes outer ++ [[]] :=
      splitSlashes_append outer []
    rw [List.append_assoc, List.singleton_append, splitSlashes_append, hslash,
      splitSlashes_of_not_mem hname, List.dropLast_concat]

private theorem splitLead_front_append {front name : List Char} (hfront : IsFront front)
    (hslash : '/' ∉ name) (hdot : name ≠ ['.']) :
    splitLead (front ++ name) = ((splitLead front).1, (splitLead front).2 ++ name) ∧
      IsFront (splitLead front).2 := by
  have hmem (rest : List Char) : name ≠ '/' :: rest := by
    rintro rfl
    exact hslash List.mem_cons_self
  fun_cases splitLead front with
  | case1 rest => exact ⟨rfl, hfront.tail⟩
  | case2 =>
    obtain ⟨outer, houter⟩ := hfront.resolve_left (by simp)
    exact absurd (congrArg List.getLast? houter) (by simp)
  | case3 rest => exact ⟨rfl, hfront.tail⟩
  | case4 text hroot hhere hbelow =>
    refine ⟨?_, hfront⟩
    rcases hfront with rfl | ⟨outer, rfl⟩
    · refine splitLead.eq_4 name hmem hdot fun rest hrest ↦ ?_
      rw [hrest] at hslash
      exact hslash (by simp)
    · -- the front ends in a slash, so that no lead goes beyond it
      cases outer with
      | nil => exact absurd rfl (hroot [])
      | cons c outer =>
        refine splitLead.eq_4 _ (fun rest h ↦ ?_) (fun h ↦ ?_) (fun rest h ↦ ?_)
        · obtain ⟨rfl, -⟩ := List.cons.inj h
          exact hroot _ rfl
        · exact absurd (congrArg List.length h) (by simp)
        · obtain ⟨rfl, hrest⟩ := List.cons.inj h
          cases outer with
          | nil => exact hbelow [] rfl
          | cons d outer =>
            obtain ⟨rfl, -⟩ := List.cons.inj hrest
            exact hbelow _ rfl

private theorem reversedParts_front_append {front name : List Char} (hfront : IsFront front)
    (hslash : '/' ∉ name) (hidle : isIdlePart name = false) :
    reversedParts (front ++ name) = name :: (splitSlashes front).dropLast.reverse := by
  rw [reversedParts, splitSlashes_front_append hfront hslash, List.reverse_append]
  simp [hidle]

/-- The path that a front leads to. -/
def frontPath (front : List Char) : Path :=
  ⟨String.ofList ((splitLead front).1 ++ joinSlashes
    ((splitSlashes (splitLead front).2).dropLast.reverse.dropWhile isIdlePart).reverse)⟩

/-- A path that ends in a plain name has it for a file name, and its parent is what its front leads
to. -/
theorem fileName?_parent?_front_append {front : List Char} (hfront : IsFront front) {name : String}
    (hname : IsPlainName name) {path : Path} (hpath : path.text.toList = front ++ name.toList) :
    path.fileName? = some name ∧ path.parent? = some (frontPath front) := by
  have hne (other : String) (h : name ≠ other) : name.toList ≠ other.toList :=
    fun he ↦ h (String.toList_injective he)
  have hempty : name.toList ≠ [] := hne "" hname.ne_empty
  have hdot : name.toList ≠ ['.'] := hne "." hname.ne_dot
  have hdots : name.toList ≠ ['.', '.'] := hne ".." hname.ne_dots
  have hidle : isIdlePart name.toList = false := by simp [isIdlePart, hempty, hdot]
  obtain ⟨hlead, hbody⟩ := splitLead_front_append hfront hname.slash hdot
  have hparts := reversedParts_front_append hbody hname.slash hidle
  constructor
  · rw [fileName?, hpath, hlead]
    simp only [hparts, if_neg hdots, String.ofList_toList]
  · rw [parent?, hpath, hlead]
    simp only [hparts]
    rfl

/-- A plain name in a directory is the file name of its path. -/
theorem fileName?_child {directory : Path} {name : String} (h : IsPlainName name) :
    (directory.child name).fileName? = some name := by
  by_cases hd : directory.text = ""
  · rw [child_of_empty h hd]
    exact (fileName?_parent?_front_append (.inl rfl) h rfl).1
  · obtain ⟨front, -, hchild⟩ := toList_child h hd
    have hpath : (directory.child name).text.toList = (front ++ ['/']) ++ name.toList := by
      rw [hchild, List.append_assoc, List.singleton_append]
    exact (fileName?_parent?_front_append (.inr ⟨front, rfl⟩) h hpath).1

end Path

namespace Document

open LayeredConfig.Path (IsFront IsPlainName)

/-! ### Names with an extension -/

/-- A name has one of the extensions that documents may have. -/
def HasKnownExtension (name : String) : Prop :=
  ∃ extension ∈ knownExtensions, Path.extensionOf name = some extension

/-- A name with the extension of documents behind it. -/
def extended (name : String) : String := name ++ "." ++ documentExtension

/-- An extended name ends in the extension of documents. -/
theorem toList_extended (name : String) :
    (extended name).toList = name.toList ++ '.' :: documentExtension.toList := by
  simp [extended]

/-- A name with a known extension is kept, and any other one is extended. -/
theorem withExtension_cases (name : String) :
    HasKnownExtension name ∧ withExtension name = name ∨
      ¬ HasKnownExtension name ∧ withExtension name = extended name := by
  rw [withExtension]
  cases hextension : Path.extensionOf name with
  | none => exact .inr ⟨by simp [HasKnownExtension, hextension], rfl⟩
  | some extension =>
    by_cases hknown : extension ∈ knownExtensions
    · refine .inl ⟨⟨extension, hknown, hextension⟩, ?_⟩
      simp only [List.contains_eq_mem, hknown, decide_true, if_true]
    · refine .inr ⟨?_, ?_⟩
      · rintro ⟨other, hother, hsame⟩
        rw [hextension] at hsame
        exact hknown (Option.some.inj hsame ▸ hother)
      · simp only [List.contains_eq_mem, hknown, decide_false, Bool.false_eq_true, if_false]
        rfl

private theorem withExtension_of_not_known {name : String} (h : ¬ HasKnownExtension name) :
    withExtension name = extended name :=
  ((withExtension_cases name).resolve_left fun hknown ↦ h hknown.1).2

private theorem withExtension_extended {name : String} (h : name ≠ "") :
    withExtension (extended name) = extended name := by
  have hstem : name.toList ≠ [] := fun hnil ↦ h (String.toList_eq_nil_iff.mp hnil)
  have hextension : Path.extensionOf (extended name) = some documentExtension := by
    rw [Path.extensionOf, toList_extended, Path.splitExtension_append hstem (by decide)]
    rfl
  have hknown : HasKnownExtension (extended name) :=
    ⟨documentExtension, by decide, hextension⟩
  exact ((withExtension_cases _).resolve_right fun hnot ↦ hnot.1 hknown).2

private theorem isPlainName_extended {name : String} (h : IsPlainName name) :
    IsPlainName (extended name) := by
  have hlong (other : String) (hshort : other.toList.length < 5) : extended name ≠ other := by
    rintro rfl
    rw [toList_extended, List.length_append] at hshort
    have hfive : ('.' :: documentExtension.toList).length = 5 := by decide
    omega
  refine ⟨?_, hlong "" (by decide), hlong "." (by decide), hlong ".." (by decide)⟩
  rw [toList_extended, List.mem_append, not_or]
  exact ⟨h.slash, by decide⟩

/-! ### Identifiers -/

/-- An identifier ends in a plain name, behind a front. -/
structure EndsIn (identifier : String) (front : List Char) (name : String) : Prop where
  text : identifier.toList = front ++ name.toList
  front : IsFront front
  plain : IsPlainName name

/-- An identifier ends in a plain name without a known extension. -/
def IsBare (identifier : String) : Prop :=
  ∃ front name, EndsIn identifier front name ∧ ¬ HasKnownExtension name

/-- Two spellings of an identifier: the second is the first one, or adds the extension of documents
that the first one lacks. -/
inductive Respelled : String → String → Prop
  | same (identifier : String) : Respelled identifier identifier
  | extended {identifier : String} (bare : IsBare identifier) :
      Respelled identifier (extended identifier)

private theorem EndsIn.extended {identifier name : String} {front : List Char}
    (h : EndsIn identifier front name) :
    EndsIn (extended identifier) front (Document.extended name) where
  text := by rw [toList_extended, toList_extended, h.text, List.append_assoc]
  front := h.front
  plain := isPlainName_extended h.plain

namespace Reference

variable {fs : FileSystem} {root : Path} {identifier : String}
  {identifiers identifiers' : List String}

/-- An identifier that ends in a plain name asks for that name in the directory of its front. -/
theorem primary?_of_endsIn {front : List Char} {name : String} (h : EndsIn identifier front name) :
    primary? root ⟨identifier⟩ = some ⟨withExtension name,
      if (Path.frontPath front).text = "" then root else root.join (Path.frontPath front)⟩ := by
  obtain ⟨hname, hparent⟩ := Path.fileName?_parent?_front_append h.front h.plain h.text
  rw [primary?, hname, directoryOf, hparent]
  rfl

private theorem primary?_extended (h : IsBare identifier) :
    primary? root ⟨extended identifier⟩ = primary? root ⟨identifier⟩ := by
  obtain ⟨front, name, hends, hunknown⟩ := h
  rw [primary?_of_endsIn hends.extended, primary?_of_endsIn hends,
    withExtension_extended hends.plain.ne_empty, withExtension_of_not_known hunknown]

private theorem resolve_respelled {identifier' : String} (h : Respelled identifier identifier') :
    resolve fs root identifier' = resolve fs root identifier := by
  cases h with
  | same => rfl
  | extended bare =>
    have hprimary : primary? root ⟨extended identifier⟩ = primary? root ⟨identifier⟩ :=
      primary?_extended bare
    obtain ⟨front, name, hends, -⟩ := bare
    -- the identifier itself is reported only when it names no document, and both do
    rw [resolve, resolve, hprimary, primary?_of_endsIn hends]

private theorem resolveAll_respelled (h : List.Forall₂ Respelled identifiers identifiers') :
    resolveAll fs root identifiers' = resolveAll fs root identifiers := by
  induction h with
  | nil => rfl
  | cons hfirst _ ih => rw [resolveAll, resolveAll, resolve_respelled hfirst, ih]

/-- **Identifiers resolve alike with and without the extension of documents**, wherever in a list it
is added: to the same documents in the same order, or to the fault of the first identifier that
stands for no document, with the path that is wanted there. So compiling and reading come to the
same. -/
theorem resolution_eq_of_respelled (h : List.Forall₂ Respelled identifiers identifiers') :
    resolveAll fs root identifiers' = resolveAll fs root identifiers ∧
      (∀ fault, resolveAll fs root identifiers' = .error fault ↔
        ∃ before identifier, FirstWith (Unresolvable fs root) identifiers before identifier ∧
          fault = .notFound (wantedPath root identifier)) ∧
      ∀ (settings : Settings) (options : Options),
        settings.compile options identifiers' fs = settings.compile options identifiers fs ∧
          settings.read fs identifiers' = settings.read fs identifiers := by
  refine ⟨resolveAll_respelled h, fun fault ↦ ?_, fun settings options ↦ ⟨?_, ?_⟩⟩
  · rw [resolveAll_respelled h, resolveAll_eq_error_iff]
  · rw [Settings.compile, Settings.compile, resolveAll_respelled h]
  · rw [Settings.read, Settings.read, resolveAll_respelled h]

/-- A default document in a directory, a hidden document and one with the other extension. -/
def variedDocuments : FileSystem :=
  { nodes := [(["d.app.yaml", "conf"], .file "a: 1\n".toUTF8), (["conf"], .directory),
      ([".env.yaml"], .file "a: 2\n".toUTF8), (["old.yml"], .file "a: 3\n".toUTF8)]
    workingDirectory := []
    distinct := by decide
    enclosed := by simp }

/-- A name in a directory and a hidden name are found in both spellings. -/
theorem resolution_eq_of_respelled_varied :
    resolveAll variedDocuments ⟨"."⟩ ["conf//app.yaml", "old.yml", "./.env.yaml"]
        = resolveAll variedDocuments ⟨"."⟩ ["conf//app", "old.yml", "./.env"] ∧
      resolveAll variedDocuments ⟨"."⟩ ["conf//app", "old.yml", "./.env"]
        = .ok [⟨"d.app.yaml", ⟨"./conf"⟩⟩, ⟨"old.yml", ⟨"."⟩⟩, ⟨".env.yaml", ⟨"./."⟩⟩] := by
  have hbare (outer name : String) (hplain : IsPlainName name)
      (hextension : Path.extensionOf name = none) : IsBare (outer ++ "/" ++ name) := by
    refine ⟨outer.toList ++ ['/'], name, ⟨by simp, .inr ⟨_, rfl⟩, hplain⟩, ?_⟩
    rintro ⟨extension, -, hsome⟩
    rw [hextension] at hsome
    cases hsome
  have happ : IsBare "conf//app" :=
    hbare "conf/" "app" ⟨by decide, by decide, by decide, by decide⟩ rfl
  have henv : IsBare "./.env" :=
    hbare "." ".env" ⟨by decide, by decide, by decide, by decide⟩ rfl
  have hrespelled : List.Forall₂ Respelled ["conf//app", "old.yml", "./.env"]
      ["conf//app.yaml", "old.yml", "./.env.yaml"] :=
    .cons (.extended happ) (.cons (.same _) (.cons (.extended henv) .nil))
  exact ⟨(resolution_eq_of_respelled hrespelled).1, by decide +kernel⟩

end Reference

end Document

end LayeredConfig
