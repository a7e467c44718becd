import LayeredConfig.Document.Reference
import LayeredConfig.Proofs.FirstFailure
import Mathlib.Data.List.Forall2

/-!
# Which documents are found

An identifier stands for its own document or, where there is none, for the default document beside
it. Identifiers are resolved in order; the first that stands for no document is reported with the
path that was wanted.
-/

namespace LayeredConfig.Document.Reference

variable {fs : FileSystem} {root : Path}

/-- The document that an identifier stands for: the one it asks for if that is a file, or else the
default document beside it. -/
inductive Resolves (fs : FileSystem) (root : Path) (identifier : String) : Reference → Prop
  | primary {primary : Reference} (h : primary? root ⟨identifier⟩ = some primary)
      (hfile : fs.isFile primary.path = true) : Resolves fs root identifier primary
  | fallback {primary : Reference} (h : primary? root ⟨identifier⟩ = some primary)
      (hnone : fs.isFile primary.path = false) (hfile : fs.isFile primary.fallback.path = true) :
      Resolves fs root identifier primary.fallback

/-- An identifier names no document, or neither that document nor the default one is a file. -/
def Unresolvable (fs : FileSystem) (root : Path) (identifier : String) : Prop :=
  ∀ primary, primary? root ⟨identifier⟩ = some primary →
    fs.isFile primary.path = false ∧ fs.isFile primary.fallback.path = false

/-- The path of the document that an identifier asks for first, or the identifier itself below the
root when it names no document. -/
def wantedPath (root : Path) (identifier : String) : Path :=
  ((primary? root ⟨identifier⟩).map path).getD (root.join ⟨identifier⟩)

/-- Resolving finds the document that an identifier stands for. -/
theorem resolve_eq_ok_iff {identifier : String} {reference : Reference} :
    resolve fs root identifier = .ok reference ↔ Resolves fs root identifier reference := by
  constructor
  · intro h
    rw [resolve] at h
    split at h
    · cases h
    · next primary hp =>
      split at h
      · next hfile =>
        cases h
        exact .primary hp hfile
      · next hnone =>
        split at h
        · next hfile =>
          cases h
          exact .fallback hp (Bool.eq_false_iff.mpr hnone) hfile
        · cases h
  · intro h
    cases h with
    | primary hp hfile => simp [resolve, hp, hfile]
    | fallback hp hnone hfile => simp [resolve, hp, hnone, hfile]

/-- Resolving fails exactly for identifiers that stand for no document, with the wanted path. -/
theorem resolve_eq_error_iff {identifier : String} {fault : Fault} :
    resolve fs root identifier = .error fault ↔
      Unresolvable fs root identifier ∧ fault = .notFound (wantedPath root identifier) := by
  rw [resolve, Unresolvable, wantedPath, eq_comm (a := fault)]
  cases primary? root ⟨identifier⟩ with
  | none => simp
  | some primary =>
    by_cases hp : fs.isFile primary.path = true
    · simp [hp]
    · by_cases hf : fs.isFile primary.fallback.path = true
      · simp [hp, hf]
      · simp [hp, hf]

/-- An identifier that stands for a document is resolvable. -/
theorem not_unresolvable_iff {identifier : String} :
    ¬ Unresolvable fs root identifier ↔ ∃ reference, Resolves fs root identifier reference := by
  constructor
  · intro h
    cases hr : resolve fs root identifier with
    | error fault => exact absurd (resolve_eq_error_iff.mp hr).1 h
    | ok reference => exact ⟨reference, resolve_eq_ok_iff.mp hr⟩
  · rintro ⟨reference, hr⟩ hu
    have herror := resolve_eq_error_iff.mpr ⟨hu, rfl⟩
    rw [resolve_eq_ok_iff.mpr hr] at herror
    cases herror

/-- All identifiers are resolved in order when each stands for a document. -/
theorem resolveAll_eq_ok_iff {identifiers : List String} {references : List Reference} :
    resolveAll fs root identifiers = .ok references ↔
      List.Forall₂ (Resolves fs root) identifiers references := by
  induction identifiers generalizing references with
  | nil => simp [resolveAll, eq_comm]
  | cons identifier rest ih =>
    rw [resolveAll, List.forall₂_cons_left_iff]
    cases hr : resolve fs root identifier with
    | error fault =>
      have hu := (resolve_eq_error_iff.mp hr).1
      have hnone : ∀ reference, ¬ Resolves fs root identifier reference :=
        fun reference h ↦ not_unresolvable_iff.mpr ⟨reference, h⟩ hu
      simp [hnone]
    | ok reference =>
      have hself : ∀ other, Resolves fs root identifier other ↔ other = reference := by
        intro other
        rw [← resolve_eq_ok_iff, hr, Except.ok.injEq, eq_comm]
      simp only [hself, map_eq_ok_iff, ih]
      constructor
      · rintro ⟨others, hothers, rfl⟩
        exact ⟨reference, others, rfl, hothers, rfl⟩
      · rintro ⟨_, others, rfl, hothers, rfl⟩
        exact ⟨others, hothers, rfl⟩

/-- The fault names the path that the first unresolvable identifier asks for. -/
theorem resolveAll_eq_error_iff {identifiers : List String} {fault : Fault} :
    resolveAll fs root identifiers = .error fault ↔
      ∃ before identifier, FirstWith (Unresolvable fs root) identifiers before identifier ∧
        fault = .notFound (wantedPath root identifier) := by
  refine FirstWith.iff_of_cons
    (fun identifiers fault ↦ resolveAll fs root identifiers = .error fault)
    (fun _ ↦ nofun) (fun identifier rest fault ↦ ?_) identifiers fault
  rw [resolveAll]
  cases hr : resolve fs root identifier with
  | error found =>
    obtain ⟨hu, rfl⟩ := resolve_eq_error_iff.mp hr
    rw [eq_comm (a := fault)]
    simp [hu]
  | ok reference =>
    have hn := not_unresolvable_iff.mpr ⟨reference, resolve_eq_ok_iff.mp hr⟩
    simp [hn, map_eq_error_iff]

end LayeredConfig.Document.Reference
