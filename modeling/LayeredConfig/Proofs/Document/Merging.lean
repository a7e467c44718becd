import LayeredConfig.Document.Loading
import LayeredConfig.Proofs.FirstFailure
import Mathlib.Data.List.Forall2

/-!
# What a loading opens

Documents are opened in order, each once for every time that it is listed. Either all of them are
parsed and merged, or the first that has a fault is the last one that is opened.
-/

namespace LayeredConfig.Document

variable {fs : FileSystem} {sigil : Char}

/-- A document has a fault. -/
def Faulty (fs : FileSystem) (sigil : Char) (path : Path) : Prop :=
  ∃ fault, read fs sigil path = .error fault

private theorem not_faulty_iff {path : Path} :
    ¬ Faulty fs sigil path ↔ ∃ tree, read fs sigil path = .ok tree := by
  rw [Faulty]
  cases read fs sigil path <;> simp

/-- What is read from a document is the tree of some root. -/
theorem exists_rootTree_of_read {path : Path} {tree : Tree} (h : read fs sigil path = .ok tree) :
    ∃ value, rootTree sigil path value = .ok tree := by
  rw [read] at h
  split at h
  · cases h
  rw [parse] at h
  split at h
  · exact ⟨.null, h⟩
  split at h
  · cases h
  · next value _ => exact ⟨value, h⟩

private theorem mergeInto_eq_ok_iff {base tree : Tree} {paths opened : List Path} :
    mergeInto fs sigil base paths = ⟨opened, .ok tree⟩ ↔
      opened = paths ∧ ∃ trees,
        List.Forall₂ (fun path next ↦ read fs sigil path = .ok next) paths trees ∧
          tree = Tree.mergeAll base trees := by
  induction paths generalizing base opened with
  | nil =>
    simp only [mergeInto, Loading.mk.injEq, Except.ok.injEq, List.forall₂_nil_left_iff,
      exists_eq_left, Tree.mergeAll, List.foldl_nil]
    constructor
    · rintro ⟨rfl, rfl⟩
      exact ⟨rfl, rfl⟩
    · rintro ⟨rfl, rfl⟩
      exact ⟨rfl, rfl⟩
  | cons path rest ih =>
    rw [mergeInto]
    cases hr : read fs sigil path with
    | error fault => simp [List.forall₂_cons_left_iff, hr]
    | ok next =>
      simp only [List.forall₂_cons_left_iff, hr, Except.ok.injEq, Loading.mk.injEq]
      constructor
      · rintro ⟨rfl, hresult⟩
        obtain ⟨hopened, trees, htrees, htree⟩ :=
          ih.mp (show mergeInto fs sigil (base.merge next) rest = ⟨_, .ok tree⟩ by rw [← hresult])
        exact ⟨by rw [hopened], next :: trees, ⟨next, trees, rfl, htrees, rfl⟩, htree⟩
      · rintro ⟨rfl, _, ⟨_, trees, rfl, htrees, rfl⟩, htree⟩
        rw [ih.mpr ⟨rfl, trees, htrees, htree⟩]
        exact ⟨rfl, rfl⟩

/-- Loading fails at the first document with a fault. It is the last one opened. -/
theorem mergeInto_eq_error_iff (base : Tree) {paths opened : List Path} {fault : Fault} :
    mergeInto fs sigil base paths = ⟨opened, .error fault⟩ ↔
      ∃ before path, FirstWith (Faulty fs sigil) paths before path ∧
        read fs sigil path = .error fault ∧ opened = before ++ [path] := by
  induction paths generalizing base opened with
  | nil => simp [mergeInto, FirstWith.not_nil]
  | cons path rest ih =>
    rw [mergeInto]
    simp only [FirstWith.cons_iff]
    cases hr : read fs sigil path with
    | error found =>
      have hf : Faulty fs sigil path := ⟨found, hr⟩
      simp only [hf, true_and, not_true_eq_false, false_and, or_false, Loading.mk.injEq,
        Except.error.injEq]
      constructor
      · rintro ⟨rfl, rfl⟩
        exact ⟨[], path, ⟨rfl, rfl⟩, hr, rfl⟩
      · rintro ⟨_, _, ⟨rfl, rfl⟩, hfault, rfl⟩
        exact ⟨rfl, Except.error.inj (hr.symm.trans hfault)⟩
    | ok next =>
      have hn : ¬ Faulty fs sigil path := not_faulty_iff.mpr ⟨next, hr⟩
      simp only [hn, false_and, not_false_eq_true, true_and, false_or, Loading.mk.injEq]
      constructor
      · rintro ⟨rfl, hresult⟩
        obtain ⟨before, faulty, hfirst, hfault, hopened⟩ :=
          (ih (base.merge next)).mp
            (show mergeInto fs sigil (base.merge next) rest = ⟨_, .error fault⟩ by rw [← hresult])
        exact ⟨path :: before, faulty, ⟨before, rfl, hfirst⟩, hfault, by
          rw [hopened, List.cons_append]⟩
      · rintro ⟨_, faulty, ⟨before, rfl, hfirst⟩, hfault, rfl⟩
        rw [(ih (base.merge next)).mpr ⟨before, faulty, hfirst, hfault, rfl⟩]
        exact ⟨rfl, rfl⟩

/-- Documents are loaded when every one of them is read. -/
theorem load_eq_ok_iff {sources : List Reference} {opened : List Path} {merged : Merged} :
    load fs sigil sources = ⟨opened, .ok merged⟩ ↔
      opened = sources.map Reference.path ∧ ∃ trees,
        List.Forall₂ (fun path next ↦ read fs sigil path = .ok next)
            (sources.map Reference.path) trees ∧
          merged = ⟨Tree.mergeAll [] trees, sources⟩ := by
  rw [load]
  constructor
  · intro h
    cases hm : mergeInto fs sigil [] (sources.map Reference.path) with
    | mk found result =>
      rw [hm] at h
      cases result with
      | error fault => cases h
      | ok tree =>
        obtain ⟨hopened, trees, htrees, htree⟩ := mergeInto_eq_ok_iff.mp hm
        cases h
        exact ⟨hopened, trees, htrees, by rw [htree]⟩
  · rintro ⟨hopened, trees, htrees, rfl⟩
    rw [mergeInto_eq_ok_iff.mpr ⟨hopened, trees, htrees, rfl⟩]
    rfl

/-- Documents are not loaded when one of them has a fault. -/
theorem load_eq_error_iff {sources : List Reference} {opened : List Path} {fault : Fault} :
    load fs sigil sources = ⟨opened, .error fault⟩ ↔
      ∃ before path, FirstWith (Faulty fs sigil) (sources.map Reference.path) before path ∧
        read fs sigil path = .error fault ∧ opened = before ++ [path] := by
  rw [← mergeInto_eq_error_iff [], load]
  cases mergeInto fs sigil [] (sources.map Reference.path) with
  | mk found result => cases result <;> simp [Except.map]

end LayeredConfig.Document
