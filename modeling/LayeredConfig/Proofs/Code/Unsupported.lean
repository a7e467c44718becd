import LayeredConfig.Proofs.Code.Structured

/-!
# Values without code

Only numbers that are not finite have no code. Generating code of either kind fails for no other
reason.
-/

namespace LayeredConfig.Code

/-- A number that is not finite stands where it would have to be assigned. -/
def Unsupported (error : GenerationError) : Prop :=
  ∃ target x, error = .nonFinite target x ∧ x.isFinite = false

/-- A leaf without code is a number that is not finite. -/
theorem unsupported_of_ofScalar {target : String} {s : Scalar} {error : GenerationError}
    (h : ofScalar target s = .error error) : Unsupported error := by
  cases s with
  | float x =>
    rw [ofScalar] at h
    split at h
    · cases h
    · next hx => exact ⟨target, x, (Except.error.inj h).symm, Bool.eq_false_iff.mpr hx⟩
  | _ => cases h

private theorem unsupported_of_assign {target : List Text → String} {tip : Tree.Tip}
    {error : GenerationError} (h : assign target tip = .error error) : Unsupported error := by
  rcases tip with ⟨path, s | entries⟩
  · rw [assign, valueCode, map_eq_error_iff] at h
    exact unsupported_of_ofScalar h
  · cases h

private theorem unsupported_of_structured {container : String} {tree : Tree}
    {error : GenerationError}
    (h : structured container tree = .error error) : Unsupported error := by
  rw [structured_eq_tipsCode, tipsCode, map_eq_error_iff] at h
  obtain ⟨tip, -, htip⟩ := exists_of_mapM_eq_error h
  exact unsupported_of_assign htip

/-- The entries of a flat tree are assigned in order. -/
theorem flatAssignments_eq_mapM (segment : Segment) (flat : Tree) :
    flatAssignments segment flat
      = flat.mapM fun entry ↦ flatAssignment segment entry.1 entry.2 := by
  induction flat with
  | nil => rfl
  | cons entry rest ih =>
    rcases entry with ⟨key, value⟩
    rw [flatAssignments, ih, List.mapM_cons]
    cases flatAssignment segment key value with
    | error e => rfl
    | ok first =>
      cases rest.mapM fun entry ↦ flatAssignment segment entry.1 entry.2 with
      | error e => rfl
      | ok more => rfl

private theorem unsupported_of_flatAssignments {segment : Segment} {tree : Tree}
    {error : GenerationError}
    (h : flatAssignments segment tree = .error error) : Unsupported error := by
  rw [flatAssignments_eq_mapM] at h
  obtain ⟨⟨key, value⟩, -, hentry⟩ := exists_of_mapM_eq_error h
  rcases value with s | entries
  · rw [flatAssignment, map_eq_error_iff] at hentry
    exact unsupported_of_ofScalar hentry
  · cases hentry

/-- A generator fails only for numbers that are not finite. -/
theorem unsupported_of_generate {generator : Generator} {tree : Tree} {error : GenerationError}
    (h : generator.generate tree = .error error) : Unsupported error := by
  cases generator with
  | structured container => exact unsupported_of_structured h
  | flat segment =>
    rw [Generator.generate, flat, map_eq_error_iff] at h
    exact unsupported_of_flatAssignments h

end LayeredConfig.Code
