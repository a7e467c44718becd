import LayeredConfig.Proofs.Compilation.Outcome
import LayeredConfig.Proofs.FileSystem.Naming

/-!
# Signatures of paths

Under the path basis a signature is made from the texts of paths, one behind the other and without
anything between. Where every path but the first starts at the root, its slash shows where it
begins: had the path before it gone on there, that would lead into a file. So documents that exist
side by side are told from their material.

Relative paths are not: the text of one may be that of two others, and all three may be files.
-/

namespace LayeredConfig

/-! ### Material -/

namespace Signature

private theorem material_map_path (paths : List Path) :
    material (paths.map .path)
      = (paths.flatMap fun path ↦ path.text.toList).utf8Encode.data.toList := by
  induction paths with
  | nil => rfl
  | cons path rest ih =>
    have hrest : material ((path :: rest).map .path)
        = path.text.toUTF8.data.toList ++ material (rest.map .path) := rfl
    have htext : path.text.toList.utf8Encode = path.text.toUTF8 := by
      rw [← String.toByteArray_ofList, String.ofList_toList, String.toUTF8_eq_toByteArray]
    rw [hrest, ih, List.flatMap_cons, List.utf8Encode_append, ByteArray.data_append,
      Array.toList_append, htext]

private theorem flatMap_text_of_material {paths others : List Path}
    (h : material (paths.map .path) = material (others.map .path)) :
    paths.flatMap (fun path ↦ path.text.toList) = others.flatMap fun path ↦ path.text.toList := by
  rw [material_map_path, material_map_path] at h
  have hbytes := ByteArray.ext (Array.toList_inj.mp h)
  rw [← String.toByteArray_ofList, ← String.toByteArray_ofList, String.toByteArray_inj] at hbytes
  exact String.ofList_injective hbytes

private theorem hexByte_injective : Function.Injective hexByte := by
  intro a b h
  have hdigit {m n : Nat} (hm : m < 16) (hn : n < 16)
      (he : Characters.hexDigit m = Characters.hexDigit n) : m = n := by
    have hvalue := Characters.hexValue?_hexDigit hm
    rw [he, Characters.hexValue?_hexDigit hn] at hvalue
    exact (Option.some.inj hvalue).symm
  simp only [hexByte, List.cons.injEq, and_true] at h
  have ha := a.toNat_lt
  have hb := b.toNat_lt
  have hhigh := hdigit (by omega) (by omega) h.1
  have hlow := hdigit (by omega) (by omega) h.2
  exact UInt8.toNat_inj.mp (by omega)

/-- Bytes are told from their digits. -/
theorem eq_of_flatMap_hexByte {bytes others : List UInt8}
    (h : bytes.flatMap hexByte = others.flatMap hexByte) : bytes = others := by
  induction bytes generalizing others with
  | nil =>
    cases others with
    | nil => rfl
    | cons other rest' => cases h
  | cons b rest ih =>
    cases others with
    | nil => cases h
    | cons other rest' =>
      obtain ⟨hhead, htail⟩ := List.append_inj h rfl
      rw [hexByte_injective hhead, ih htail]

/-- A digest is told from its signature. -/
theorem ofDigest_injective : Function.Injective ofDigest := by
  intro digest other h
  exact Vector.toList_inj.mp (eq_of_flatMap_hexByte (congrArg Signature.digits h))

end Signature

/-! ### Paths that exist side by side -/

private theorem Path.isAbsolute_join {base : Path} (h : base.isAbsolute = true) (extra : Path) :
    (base.join extra).isAbsolute = true := by
  have hbase := h
  rw [isAbsolute, decide_eq_true_eq] at hbase
  obtain ⟨rest, htext⟩ := List.head?_eq_some_iff.mp hbase
  rw [join]
  split
  · next hextra => exact hextra
  · split
    · next hlast =>
      rw [htext] at hlast
      simp at hlast
    · simp [isAbsolute, htext]
    · simp [isAbsolute, htext]

/-- Every path of a list but the first one starts at the root. -/
def Path.AbsoluteBehindFirst (paths : List Path) : Prop :=
  ∀ path ∈ paths.tail, path.isAbsolute = true

namespace FileSystem

variable {fs : FileSystem}

/-- The path of a file ends where absolute paths follow, if another file's path begins like it. -/
theorem eq_nil_of_isFile {path other : Path} {rest : List Path} {more behind : List Char}
    (hfile : fs.isFile path = true) (hother : fs.isFile other = true)
    (habsolute : ∀ next ∈ rest, next.isAbsolute = true)
    (htext : other.text.toList = path.text.toList ++ more)
    (hrest : rest.flatMap (fun next ↦ next.text.toList) = more ++ behind) : more = [] := by
  cases more with
  | nil => rfl
  | cons c more =>
    cases rest with
    | nil => cases hrest
    | cons next rest =>
      -- the next path begins where the other one goes on, so that is a slash
      have hhead := habsolute next List.mem_cons_self
      rw [Path.isAbsolute, decide_eq_true_eq] at hhead
      cases hnext : next.text.toList with
      | nil =>
        rw [hnext] at hhead
        cases hhead
      | cons d after =>
        rw [hnext] at hhead
        rw [List.flatMap_cons, hnext] at hrest
        obtain rfl : d = '/' := Option.some.inj hhead
        obtain rfl : '/' = c := (List.cons.inj hrest).1
        rw [not_isFile_inside hfile htext] at hother
        cases hother

/-- Lists of files with the same text are the same, if every path but the first is absolute. -/
theorem eq_of_flatMap_text {paths others : List Path} (hfiles : ∀ path ∈ paths, fs.isFile path)
    (hothers : ∀ path ∈ others, fs.isFile path) (habsolute : Path.AbsoluteBehindFirst paths)
    (habsolute' : Path.AbsoluteBehindFirst others)
    (h : paths.flatMap (fun path ↦ path.text.toList)
      = others.flatMap fun path ↦ path.text.toList) : paths = others := by
  induction paths generalizing others with
  | nil =>
    cases others with
    | nil => rfl
    | cons other rest' =>
      rw [List.flatMap_cons, List.flatMap_nil, eq_comm, List.append_eq_nil_iff] at h
      exact absurd h.1 (toList_ne_nil_of_isFile (hothers other List.mem_cons_self))
  | cons path rest ih =>
    cases others with
    | nil =>
      rw [List.flatMap_cons, List.flatMap_nil, List.append_eq_nil_iff] at h
      exact absurd h.1 (toList_ne_nil_of_isFile (hfiles path List.mem_cons_self))
    | cons other rest' =>
      obtain ⟨hfile, hfiles⟩ := List.forall_mem_cons.mp hfiles
      obtain ⟨hother, hothers⟩ := List.forall_mem_cons.mp hothers
      have hboth : path.text.toList = other.text.toList ∧
          rest.flatMap (fun next ↦ next.text.toList)
            = rest'.flatMap fun next ↦ next.text.toList := by
        rw [List.flatMap_cons, List.flatMap_cons] at h
        rcases List.append_eq_append_iff.mp h with ⟨more, htext, hrest⟩ | ⟨more, htext, hrest⟩
        · obtain rfl := eq_nil_of_isFile hfile hother habsolute htext hrest
          exact ⟨by simpa using htext.symm, by simpa using hrest⟩
        · obtain rfl := eq_nil_of_isFile hother hfile habsolute' htext hrest
          exact ⟨by simpa using htext, by simpa using hrest.symm⟩
      have hpath : path = other := by
        cases path
        cases other
        exact congrArg Path.mk (String.toList_injective hboth.1)
      have hbehind {list : List Path} (hl : ∀ next ∈ list, next.isAbsolute = true) :
          Path.AbsoluteBehindFirst list :=
        fun next hn ↦ hl next (List.mem_of_mem_tail hn)
      rw [hpath, ih hfiles hothers (hbehind habsolute) (hbehind habsolute') hboth.2]

end FileSystem

/-! ### Compilations under the path basis -/

namespace Document.Reference

variable {fs : FileSystem} {root : Path} {identifiers : List String} {sources : List Reference}

private theorem Resolves.isFile {identifier : String} {source : Reference}
    (h : Resolves fs root identifier source) : fs.isFile source.path = true := by
  cases h with
  | primary _ hfile => exact hfile
  | fallback _ _ hfile => exact hfile

/-- What holds of every document that an identifier stands for holds of all paths of a list. -/
theorem forall_mem_of_resolved {P : Path → Prop}
    (h : List.Forall₂ (Resolves fs root) identifiers sources)
    (hP : ∀ identifier source, Resolves fs root identifier source → P source.path) :
    ∀ place ∈ sources.map path, P place := by
  induction h with
  | nil => simp
  | cons hsource _ ih =>
    rw [List.map_cons, List.forall_mem_cons]
    exact ⟨hP _ _ hsource, ih⟩

/-- Documents that identifiers stand for are files. -/
theorem isFile_of_resolved (h : List.Forall₂ (Resolves fs root) identifiers sources) :
    ∀ place ∈ sources.map path, fs.isFile place = true :=
  forall_mem_of_resolved h fun _ _ hsource ↦ hsource.isFile

private theorem Resolves.isAbsolute {identifier : String} {source : Reference}
    (hroot : root.isAbsolute = true) (h : Resolves fs root identifier source) :
    source.path.isAbsolute = true := by
  have hdirectory : (directoryOf root ⟨identifier⟩).isAbsolute = true := by
    rw [directoryOf]
    split
    · split
      · exact hroot
      · exact Path.isAbsolute_join hroot _
    · exact hroot
  have hprimary {primary : Reference} (hp : primary? root ⟨identifier⟩ = some primary) :
      primary.directory.isAbsolute = true := by
    obtain ⟨name, -, rfl⟩ := Option.map_eq_some_iff.mp hp
    exact hdirectory
  cases h with
  | primary hp _ => exact Path.isAbsolute_join (hprimary hp) _
  | fallback hp _ _ => exact Path.isAbsolute_join (hprimary hp) _

/-- Below an absolute root all paths of a list are absolute, so those behind the first one are. -/
theorem absoluteBehindFirst_of_resolved (hroot : root.isAbsolute = true)
    (h : List.Forall₂ (Resolves fs root) identifiers sources) :
    Path.AbsoluteBehindFirst (sources.map path) := by
  have hall : ∀ place ∈ sources.map path, place.isAbsolute = true :=
    forall_mem_of_resolved h fun _ _ hsource ↦ hsource.isAbsolute hroot
  exact fun place hp ↦ hall place (List.mem_of_mem_tail hp)

end Document.Reference

namespace Settings

open Document (Reference)

variable {settings : Settings} {options : Options} {identifiers : List String} {fs : FileSystem}
  {sources : List Reference} {signature : Signature}

/-- Under the path basis, what a compilation returns is the signature of the documents' paths. -/
theorem eq_ofPaths_of_compile (hbasis : settings.basis = .paths)
    (hresolved : List.Forall₂ (Reference.Resolves fs settings.root) identifiers sources)
    (h : (settings.compile options identifiers fs).result = .ok signature) :
    signature = .ofPaths (sources.map Reference.path) := by
  have hsigning := sign_of_compile hresolved h
  rw [hbasis] at hsigning
  exact (Except.ok.inj hsigning).symm

/-- Some compilation under the path basis returned a signature for documents with the given
paths. -/
def ReturnedFor (paths : List Path) (signature : Signature) : Prop :=
  ∃ (settings : Settings) (options : Options) (identifiers : List String) (fs : FileSystem)
    (sources : List Reference), settings.basis = .paths ∧
      List.Forall₂ (Reference.Resolves fs settings.root) identifiers sources ∧
      sources.map Reference.path = paths ∧
      (settings.compile options identifiers fs).result = .ok signature

/-- A returned signature is that of the documents' paths. -/
theorem ReturnedFor.eq_ofPaths {paths : List Path} (h : ReturnedFor paths signature) :
    signature = .ofPaths paths := by
  obtain ⟨settings, options, identifiers, fs, sources, hbasis, hresolved, rfl, hresult⟩ := h
  exact eq_ofPaths_of_compile hbasis hresolved hresult

/-- **Paths that exist side by side are told from the material of their signature**, where every one
behind the first is absolute. If their digests differ like the materials do, no signature that was
ever returned for documents at the one list of paths is returned for the other list. -/
theorem material_ne_of_paths_ne {root : Path} {identifiers' : List String}
    {sources' : List Reference}
    (hresolved : List.Forall₂ (Reference.Resolves fs root) identifiers sources)
    (hresolved' : List.Forall₂ (Reference.Resolves fs root) identifiers' sources')
    (habsolute : Path.AbsoluteBehindFirst (sources.map Reference.path))
    (habsolute' : Path.AbsoluteBehindFirst (sources'.map Reference.path))
    (hne : sources.map Reference.path ≠ sources'.map Reference.path) :
    Signature.material ((sources.map Reference.path).map .path)
        ≠ Signature.material ((sources'.map Reference.path).map .path) ∧
      (Sha256.digest (Signature.material ((sources.map Reference.path).map .path))
          ≠ Sha256.digest (Signature.material ((sources'.map Reference.path).map .path)) →
        ∀ signature, ReturnedFor (sources.map Reference.path) signature →
          ¬ ReturnedFor (sources'.map Reference.path) signature) := by
  refine ⟨fun hsame ↦ hne (FileSystem.eq_of_flatMap_text (Reference.isFile_of_resolved hresolved)
    (Reference.isFile_of_resolved hresolved') habsolute habsolute'
    (Signature.flatMap_text_of_material hsame)), ?_⟩
  intro hdigest signature hreturned hreturned'
  have hsame := hreturned.eq_ofPaths.symm.trans hreturned'.eq_ofPaths
  exact hdigest (Signature.ofDigest_injective hsame)

/-- Two documents in a directory below the root. -/
def absoluteDocuments : FileSystem :=
  { nodes := [(["a.yaml", "etc"], .file "x: 1\n".toUTF8),
      (["b.yaml", "etc"], .file "x: 2\n".toUTF8), (["etc"], .directory)]
    workingDirectory := []
    distinct := by decide
    enclosed := by simp }

/-- Two documents below an absolute root are told from the same ones in the other order. -/
theorem material_ne_of_paths_ne_reordered :
    Signature.material [.path ⟨"/etc/a.yaml"⟩, .path ⟨"/etc/b.yaml"⟩]
        ≠ Signature.material [.path ⟨"/etc/b.yaml"⟩, .path ⟨"/etc/a.yaml"⟩] ∧
      (compile { root := ⟨"/etc"⟩ } {} ["b", "a"] absoluteDocuments).result
        ≠ .ok (.ofPaths [⟨"/etc/a.yaml"⟩, ⟨"/etc/b.yaml"⟩]) := by
  have hforward : List.Forall₂ (Reference.Resolves absoluteDocuments ⟨"/etc"⟩) ["a", "b"]
      [⟨"a.yaml", ⟨"/etc"⟩⟩, ⟨"b.yaml", ⟨"/etc"⟩⟩] :=
    Reference.resolveAll_eq_ok_iff.mp (by decide +kernel)
  have hbackward : List.Forall₂ (Reference.Resolves absoluteDocuments ⟨"/etc"⟩) ["b", "a"]
      [⟨"b.yaml", ⟨"/etc"⟩⟩, ⟨"a.yaml", ⟨"/etc"⟩⟩] :=
    Reference.resolveAll_eq_ok_iff.mp (by decide +kernel)
  obtain ⟨hmaterial, hreturned⟩ := material_ne_of_paths_ne hforward hbackward
    (Reference.absoluteBehindFirst_of_resolved (by decide) hforward)
    (Reference.absoluteBehindFirst_of_resolved (by decide) hbackward) (by decide)
  refine ⟨hmaterial, fun hresult ↦ ?_⟩
  have hcompiled : (compile { root := ⟨"/etc"⟩ } {} ["a", "b"] absoluteDocuments).result
      = .ok (.ofPaths [⟨"/etc/a.yaml"⟩, ⟨"/etc/b.yaml"⟩]) := by
    decide +kernel
  exact hreturned (by decide +kernel) _
    ⟨{ root := ⟨"/etc"⟩ }, {}, ["a", "b"], absoluteDocuments, _, rfl, hforward, rfl, hcompiled⟩
    ⟨{ root := ⟨"/etc"⟩ }, {}, ["b", "a"], absoluteDocuments, _, rfl, hbackward, rfl, hresult⟩

/-- A directory whose name ends in a dot, beside a document of the same name without it. -/
def dottedDirectory : FileSystem :=
  { nodes := [(["a.yaml"], .file "x: 1\n".toUTF8), (["b.yaml"], .file "x: 2\n".toUTF8),
      (["b.yaml", "a.yaml."], .file "x: 3\n".toUTF8), (["a.yaml."], .directory)]
    workingDirectory := []
    distinct := by decide
    enclosed := by simp }

/-- Below a relative root one path can read like two others. When those two were compiled, its
document is never opened and gets their signature. -/
theorem material_eq_below_dottedDirectory :
    Reference.resolveAll dottedDirectory ⟨"."⟩ ["a", "b"]
        = .ok [⟨"a.yaml", ⟨"."⟩⟩, ⟨"b.yaml", ⟨"."⟩⟩] ∧
      Reference.resolveAll dottedDirectory ⟨"."⟩ ["a.yaml./b"]
        = .ok [⟨"b.yaml", ⟨"./a.yaml."⟩⟩] ∧
      Signature.material [.path ⟨"./a.yaml"⟩, .path ⟨"./b.yaml"⟩]
        = Signature.material [.path ⟨"./a.yaml./b.yaml"⟩] ∧
      (compile {} {} ["a.yaml./b"] (compile {} {} ["a", "b"] dottedDirectory).files).opened = [] ∧
      (compile {} {} ["a.yaml./b"] (compile {} {} ["a", "b"] dottedDirectory).files).result
        = .ok (.ofPaths [⟨"./a.yaml"⟩, ⟨"./b.yaml"⟩]) := by
  decide +kernel

end Settings
end LayeredConfig
