import LayeredConfig.Compiler
import LayeredConfig.Proofs.FirstFailure
import Mathlib.Data.List.TakeWhile

/-!
# What a compilation needs before it starts

A generator can be made unless flat code is asked for without a segment, and documents can be signed
unless the content basis meets one whose bytes cannot be read.
-/

namespace LayeredConfig

private theorem Characters.trim_eq_nil_iff {text : List Char} :
    trim text = [] ↔ ∀ c ∈ text, isBlank c = true := by
  rw [trim, trimWhile, dropEndWhile, List.reverse_eq_nil_iff, List.dropWhile_eq_nil_iff]
  constructor
  · intro h c hc
    rw [← List.takeWhile_append_dropWhile (p := isBlank) (l := text), List.mem_append] at hc
    rcases hc with hc | hc
    · exact List.all_eq_true.mp List.all_takeWhile c hc
    · exact h c (List.mem_reverse.mpr hc)
  · intro h c hc
    exact h c ((List.dropWhile_suffix isBlank).subset (List.mem_reverse.mp hc))

/-- Flat code is asked for, and there is no segment with a character that is not blank. -/
def Options.LacksSegment (options : Options) : Prop :=
  options.mode = .flatten ∧
    ∀ text, options.segment = some text → ∀ c ∈ text.toList, Characters.isBlank c = true

namespace Code.Generator

private theorem parse_eq_error_iff {text : String} {error : GenerationError} :
    Segment.parse text = .error error ↔
      (∀ c ∈ text.toList, Characters.isBlank c = true) ∧ error = .segmentRequired := by
  rw [← Characters.trim_eq_nil_iff, Segment.parse]
  cases Characters.trim text.toList with
  | nil => simp [eq_comm]
  | cons c rest => simp

/-- A generator is refused when flat code lacks a segment, and for no other reason. -/
theorem build_eq_error_iff {options : Options} {container : String} {error : GenerationError} :
    build options.mode options.segment container = .error error ↔
      options.LacksSegment ∧ error = .segmentRequired := by
  rw [Options.LacksSegment]
  cases options.mode with
  | structured => simp [build]
  | flatten =>
    cases options.segment with
    | none =>
      rw [eq_comm (a := error)]
      simp [build]
    | some text => simp [build, map_eq_error_iff, parse_eq_error_iff]

/-- Any other request has a generator. -/
theorem exists_build_eq_ok {options : Options} (container : String)
    (h : ¬ options.LacksSegment) :
    ∃ generator, build options.mode options.segment container = .ok generator := by
  cases hb : build options.mode options.segment container with
  | error error => exact absurd (build_eq_error_iff.mp hb).1 h
  | ok generator => exact ⟨generator, rfl⟩

end Code.Generator

/-- The bytes of a path cannot be read. -/
def Unreadable (fs : FileSystem) (path : Path) : Prop := ∀ bytes, fs.readBytes path ≠ .ok bytes

private theorem contentParts_eq_error_iff {fs : FileSystem} {paths : List Path}
    {failure : Failure} :
    contentParts fs paths = .error failure ↔
      ∃ before path, FirstWith (Unreadable fs) paths before path ∧
        failure = .unsignable path := by
  refine FirstWith.iff_of_cons (fun paths failure ↦ contentParts fs paths = .error failure)
    (fun _ ↦ nofun) (fun path rest failure ↦ ?_) paths failure
  rw [contentParts, Unreadable, eq_comm (a := failure)]
  cases fs.readBytes path with
  | error trouble => simp
  | ok bytes => simp [map_eq_error_iff]

/-- Only the content basis can fail, and it names the first document that cannot be read. -/
theorem SignatureBasis.sign_eq_error_iff {basis : SignatureBasis} {fs : FileSystem}
    {paths : List Path} {failure : Failure} :
    basis.sign fs paths = .error failure ↔
      basis = .content ∧ ∃ before path, FirstWith (Unreadable fs) paths before path ∧
        failure = .unsignable path := by
  cases basis with
  | paths => simp [sign]
  | content => simp [sign, map_eq_error_iff, contentParts_eq_error_iff]

end LayeredConfig
