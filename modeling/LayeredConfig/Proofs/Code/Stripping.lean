import LayeredConfig.Code.Generator
import LayeredConfig.Proofs.Code.Unsupported
import LayeredConfig.Proofs.Tree.FlatForm

/-!
# Keys without the stem

Flat code assigns the entries of a flat form, each under its key without the stem of the segment. A
key that is stripped can meet one that is not: two keys of one mark are assigned alike when one is
the other with the stem and a dot in front. That is the only way in which leaves with dotted keys of
their own share a target.
-/

namespace LayeredConfig.Code

open Characters (dropPrefix? dropPrefix?_eq_some_iff)
open LayeredConfig.Tree (flatten dottedLeaves leafCount)

/-! ### Stripping a key -/

namespace Segment

variable (segment : Segment)

/-- What follows the stem and a dot in a key is all of it that is left, and it is not empty. -/
theorem afterStem?_eq_some_iff (bare rest : String) :
    segment.afterStem? bare = some rest ↔ rest ≠ "" ∧ bare = segment.stem ++ "." ++ rest := by
  have hlead : ∀ chars : List Char,
      dropPrefix? (segment.stem.toList ++ ['.']) bare.toList = some chars ↔
        bare = segment.stem ++ "." ++ String.ofList chars := by
    intro chars
    rw [dropPrefix?_eq_some_iff, ← String.toList_inj]
    simp [String.toList_append]
  constructor
  · intro h
    rw [afterStem?] at h
    split at h
    · next c chars hdrop =>
      rw [← Option.some.inj h]
      exact ⟨by simp, (hlead _).mp hdrop⟩
    · exact absurd h nofun
  · rintro ⟨hne, hbare⟩
    cases hchars : rest.toList with
    | nil => exact absurd (String.toList_eq_nil_iff.mp hchars) hne
    | cons c chars =>
      have hrest : String.ofList (c :: chars) = rest := by rw [← hchars, String.ofList_toList]
      rw [afterStem?, (hlead (c :: chars)).mpr (hrest ▸ hbare)]
      exact congrArg some hrest

/-- A key is not stripped when it does not go on behind the stem and a dot. -/
theorem afterStem?_eq_none_iff (bare : String) :
    segment.afterStem? bare = none ↔ ∀ rest, rest ≠ "" → bare ≠ segment.stem ++ "." ++ rest := by
  simp only [Option.eq_none_iff_forall_ne_some, ne_eq, afterStem?_eq_some_iff, not_and]

/-- A key without the stem keeps its mark. -/
theorem isLiteral_strip (key : Text) : (segment.strip key).isLiteral = key.isLiteral := by
  rw [strip]
  split
  · exact Text.isLiteral_tagged _ _
  · rfl

/-- A key that starts with the stem and a dot is stripped to what follows them. -/
theorem strip_of_some {key : Text} {rest : String} (h : segment.afterStem? key.bare = some rest) :
    segment.strip key = .tagged rest key.isLiteral := by rw [strip, h]

/-- Any other key is not stripped. -/
theorem strip_of_none {key : Text} (h : segment.afterStem? key.bare = none) :
    segment.strip key = key := by rw [strip, h]

/-- Whether a key is another one of its mark with the stem and a dot in front, and that one is not
stripped itself. -/
def Wraps (key other : Text) : Prop :=
  key.isLiteral = other.isLiteral ∧ other.bare ≠ "" ∧
    key.bare = segment.stem ++ "." ++ other.bare ∧
    ∀ rest, rest ≠ "" → other.bare ≠ segment.stem ++ "." ++ rest

/-- A key wraps another one when it is stripped to it and that one is not stripped. -/
theorem wraps_iff (key other : Text) :
    segment.Wraps key other ↔
      segment.afterStem? key.bare = some other.bare ∧ key.isLiteral = other.isLiteral ∧
        segment.afterStem? other.bare = none := by
  rw [Wraps, afterStem?_eq_some_iff, afterStem?_eq_none_iff]
  constructor
  · rintro ⟨hmark, hne, hbare, hnot⟩
    exact ⟨⟨hne, hbare⟩, hmark, hnot⟩
  · rintro ⟨⟨hne, hbare⟩, hmark, hnot⟩
    exact ⟨hmark, hne, hbare, hnot⟩

private theorem strip_eq_iff_wraps {key other : Text} {rest : String}
    (hkey : segment.afterStem? key.bare = some rest)
    (hother : segment.afterStem? other.bare = none) :
    segment.strip key = other ↔ segment.Wraps key other := by
  rw [strip_of_some segment hkey, wraps_iff, hkey, Option.some.injEq]
  constructor
  · rintro rfl
    rw [Text.bare_tagged, Text.isLiteral_tagged]
    rw [Text.bare_tagged] at hother
    exact ⟨rfl, rfl, hother⟩
  · rintro ⟨hrest, hmark, -⟩
    rw [hrest, hmark, Text.tagged_bare_isLiteral]

private theorem strip_eq_strip_iff_of_some {key other : Text} {rest rest' : String}
    (hkey : segment.afterStem? key.bare = some rest)
    (hother : segment.afterStem? other.bare = some rest') :
    segment.strip key = segment.strip other ↔ key = other := by
  constructor
  · intro h
    have hmark : key.isLiteral = other.isLiteral := by
      rw [← isLiteral_strip segment key, h, isLiteral_strip]
    rw [strip_of_some segment hkey, strip_of_some segment hother] at h
    have hrest : rest = rest' := by
      rw [← Text.bare_tagged rest key.isLiteral, h, Text.bare_tagged]
    have hbare : key.bare = other.bare := by
      rw [((afterStem?_eq_some_iff segment _ _).mp hkey).2, hrest,
        ((afterStem?_eq_some_iff segment _ _).mp hother).2]
    exact Text.ext hbare hmark
  · exact congrArg segment.strip

private theorem strip_eq_strip_iff (key other : Text) :
    segment.strip key = segment.strip other ↔
      key = other ∨ segment.Wraps key other ∨ segment.Wraps other key := by
  -- Different keys can only meet when one of them is stripped and the other is not.
  cases hkey : segment.afterStem? key.bare with
  | none =>
    cases hother : segment.afterStem? other.bare with
    | none =>
      rw [strip_of_none segment hkey, strip_of_none segment hother]
      simp [wraps_iff, hkey, hother]
    | some rest =>
      have hne : key ≠ other := by
        rintro rfl
        exact absurd (hkey.symm.trans hother) nofun
      rw [strip_of_none segment hkey, eq_comm, strip_eq_iff_wraps segment hother hkey]
      simp [wraps_iff, hkey, hne]
  | some rest =>
    cases hother : segment.afterStem? other.bare with
    | none =>
      have hne : key ≠ other := by
        rintro rfl
        exact absurd (hkey.symm.trans hother) nofun
      rw [strip_of_none segment hother, strip_eq_iff_wraps segment hkey hother]
      simp [wraps_iff, hother, hne]
    | some rest' =>
      rw [strip_eq_strip_iff_of_some segment hkey hother]
      simp [wraps_iff, hkey, hother]

private theorem nodup_map_strip_iff {keys : List Text} (h : keys.Nodup) :
    (keys.map segment.strip).Nodup ↔
      ∀ key ∈ keys, ∀ other ∈ keys, ¬ segment.Wraps key other := by
  rw [List.nodup_map_iff_inj_on h]
  constructor
  · intro hinj key hk other ho hwraps
    have hstrip := (strip_eq_strip_iff segment key other).mpr (.inr (.inl hwraps))
    have hsame := hinj key hk other ho hstrip
    rw [wraps_iff, hsame] at hwraps
    exact absurd (hwraps.1.symm.trans hwraps.2.2) nofun
  · intro hnone key hk other ho hstrip
    rcases (strip_eq_strip_iff segment key other).mp hstrip with hsame | hwraps | hwraps
    · exact hsame
    · exact absurd hwraps (hnone key hk other ho)
    · exact absurd hwraps (hnone other ho key hk)

end Segment

/-! ### The assigned entries -/

/-- The keys and values that flat code for a tree assigns, in order. -/
def assigned (segment : Segment) (tree : Tree) : List (Text × Value) :=
  (flatten tree).map fun entry ↦ (segment.strip entry.1, entry.2)

/-- The target of a key in a segment with the given expression. -/
def keyTarget (expression : String) (key : Text) : String :=
  expression ++ "[" ++ ofText singleQuoted key ++ "]"

/-- The assignment of a value with code under a key of a segment. -/
def keyAssignment (expression : String) (entry : Text × Value) : Assignment :=
  ⟨keyTarget expression entry.1, plainCode entry.2⟩

/-- Flat code assigns the values under the keys without the stem, if they all have code. -/
theorem flat_eq_mapM_assigned (segment : Segment) (tree : Tree) :
    flat segment tree
      = ((assigned segment tree).mapM fun entry ↦
          (valueCode (keyTarget segment.expression entry.1) entry.2).map
            (⟨keyTarget segment.expression entry.1, ·⟩)).map renderLines := by
  have hentry : ∀ entry : Text × Value, flatAssignment segment entry.1 entry.2
      = (valueCode (flatTarget segment entry.1) entry.2).map (⟨flatTarget segment entry.1, ·⟩) := by
    rintro ⟨key, s | entries⟩
    · rfl
    · rfl
  rw [flat, flatAssignments_eq_mapM, assigned, List.mapM_map, funext hentry]
  rfl

private theorem text_of_generate_flat {segment : Segment} {tree : Tree} {text : String}
    (h : (Generator.flat segment).generate tree = .ok text) :
    text = renderLines ((assigned segment tree).map (keyAssignment segment.expression)) := by
  rw [Generator.generate, flat_eq_mapM_assigned] at h
  obtain ⟨assignments, hmap, rfl⟩ := map_eq_ok_iff.mp h
  refine congrArg renderLines (eq_map_of_mapM_eq_ok ?_ hmap)
  intro entry assignment hentry
  obtain ⟨code, hcode, rfl⟩ := map_eq_ok_iff.mp hentry
  rw [keyAssignment, eq_plainCode_of_valueCode hcode]

/-- **When leaves share a target.** Flat code assigns the leaves of a tree, where these have dotted
keys of their own, to different keys exactly when none of the dotted keys wraps another one; then
the assignments leave one entry for each leaf, with its value. -/
theorem distinct_assigned_iff (segment : Segment) {tree : Tree}
    (hdistinct : Entries.Distinct (dottedLeaves tree)) :
    (∀ text, (Generator.flat segment).generate tree = .ok text →
      text = renderLines ((assigned segment tree).map (keyAssignment segment.expression))) ∧
    (Entries.Distinct (assigned segment tree) ↔
      ∀ leaf ∈ dottedLeaves tree, ∀ other ∈ dottedLeaves tree, ¬ segment.Wraps leaf.1 other.1) ∧
    (Entries.Distinct (assigned segment tree) →
      Entries.ofList (assigned segment tree)
          = (dottedLeaves tree).map (fun leaf ↦ (segment.strip leaf.1, leaf.2)) ∧
        (Entries.ofList (assigned segment tree)).length = leafCount tree) := by
  have hflat := Tree.flatten_eq_dottedLeaves hdistinct
  have hkeys : Entries.keys (assigned segment tree)
      = (Entries.keys (dottedLeaves tree)).map segment.strip := by
    rw [assigned, hflat]
    simp [Entries.keys, Function.comp_def]
  refine ⟨fun _ ↦ text_of_generate_flat, ?_, ?_⟩
  · rw [Entries.Distinct, hkeys, Segment.nodup_map_strip_iff segment hdistinct]
    simp only [Entries.keys, List.forall_mem_map]
  · intro hassigned
    rw [Entries.ofList_of_distinct hassigned, assigned, hflat, List.length_map,
      Tree.length_dottedLeaves]
    exact ⟨rfl, rfl⟩

/-- A tree with the stem as a root key and, beside it, one of the keys below. -/
def wrappedBeside (key : String) : Tree :=
  [(.quoted "app", .tree [(.quoted "x", .scalar (.integer 1)), (.literal "Y", .scalar .null)]),
    (.quoted key, .scalar (.integer 2)), (.literal "x", .scalar (.integer 3))]

/-- Beside other keys, the leaf with the stem alone included, all leaves keep their values. -/
theorem distinct_assigned_wrappedBeside :
    Entries.Distinct (dottedLeaves (wrappedBeside "app.")) ∧
      (∀ leaf ∈ dottedLeaves (wrappedBeside "app."), ∀ other ∈ dottedLeaves (wrappedBeside "app."),
        ¬ Segment.Wraps ⟨"$app", "app"⟩ leaf.1 other.1) ∧
      Entries.ofList (assigned ⟨"$app", "app"⟩ (wrappedBeside "app."))
        = [(.quoted "x", .scalar (.integer 1)), (.quoted "Y", .scalar .null),
          (.quoted "app.", .scalar (.integer 2)), (.literal "x", .scalar (.integer 3))] := by
  have hdistinct : Entries.Distinct (dottedLeaves (wrappedBeside "app.")) := by decide
  have hassigned : Entries.Distinct (assigned ⟨"$app", "app"⟩ (wrappedBeside "app.")) := by decide
  obtain ⟨-, hiff, hkept⟩ := distinct_assigned_iff ⟨"$app", "app"⟩ hdistinct
  exact ⟨hdistinct, hiff.mp hassigned, (hkept hassigned).1.trans (by decide)⟩

/-- A key that stands bare beside the same key below the stem shares its target: the leaves have
dotted keys of their own, and yet one value overwrites the other. -/
theorem not_distinct_assigned_wrappedBeside :
    Segment.parse "$app" = .ok ⟨"$app", "app"⟩ ∧
      Entries.Distinct (dottedLeaves (wrappedBeside "x")) ∧
      (Generator.flat ⟨"$app", "app"⟩).generate (wrappedBeside "x")
        = .ok "$app['x'] = 1;\n$app['Y'] = null;\n$app['x'] = 2;\n$app[x] = 3;" ∧
      ¬ Entries.Distinct (assigned ⟨"$app", "app"⟩ (wrappedBeside "x")) ∧
      Entries.ofList (assigned ⟨"$app", "app"⟩ (wrappedBeside "x"))
        = [(.quoted "x", .scalar (.integer 2)), (.quoted "Y", .scalar .null),
          (.literal "x", .scalar (.integer 3))] := by
  exact ⟨by decide, by decide, by decide, by decide, by decide⟩

end LayeredConfig.Code
