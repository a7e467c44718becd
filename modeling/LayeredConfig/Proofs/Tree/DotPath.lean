import LayeredConfig.Proofs.Tree.Place

/-!
# Dot paths and paths of keys

A flat key spells a path of keys: its segments, of which only the first keeps the mark. Splitting
undoes joining for the paths that flattening writes, and joining undoes splitting for every flat
key that does not start with a dot.
-/

namespace LayeredConfig.Tree

/-- The path of keys that a flat key spells. -/
def pathOf (key : Text) : List Text :=
  match splitPath key.bare with
  | [] => []
  | first :: rest => .tagged first key.isLiteral :: rest.map .quoted

/-- Extends a dot path by the bare texts of keys, one after the other. -/
def joinKeys (path : String) (list : List Text) : String :=
  list.foldl (fun path key ↦ joinPath path key.bare) path

/-- The flat key that spells a path of keys; it has the mark of the first one. -/
def flatKey : List Text → Text
  | [] => .quoted ""
  | head :: rest => .tagged (joinKeys head.bare rest) head.isLiteral

/-- A path of keys that its flat key spells: no key has a dot, only the first one may be literal,
and it has a text if others follow. -/
structure Addressable (path : List Text) : Prop where
  ne_nil : path ≠ []
  dotless : ∀ key ∈ path, separator ∉ key.bare.toList
  quoted : ∀ key ∈ path.tail, key.isLiteral = false
  named : ∀ key ∈ path.head?, path.tail ≠ [] → key.bare ≠ ""

/-- The segments of a text are what lies between its separators. -/
theorem splitChars_eq_splitOn (text : List Char) : splitChars text = text.splitOn separator := by
  induction text with
  | nil => rw [splitChars, List.splitOn_nil]
  | cons c rest ih =>
    rw [splitChars, List.splitOn_cons_eq_if_modifyHead, ih]
    by_cases h : c = separator
    · simp [h]
    · simp only [h, ite_false, beq_iff_eq]
      cases hs : rest.splitOn separator with
      | nil => exact absurd hs (List.splitOn_ne_nil _ _)
      | cons segment more => rfl

/-- The segments of a path, joined by separators, are the path. -/
theorem intercalate_splitPath (path : String) :
    [separator].intercalate ((splitPath path).map String.toList) = path.toList := by
  simp [splitPath, splitChars_eq_splitOn, List.map_map, Function.comp_def]

private theorem splitPath_of_intercalate {path : String} {segments : List String}
    (hne : segments ≠ [])
    (hdot : ∀ segment ∈ segments, separator ∉ segment.toList)
    (h : path.toList = [separator].intercalate (segments.map String.toList)) :
    splitPath path = segments := by
  rw [splitPath, splitChars_eq_splitOn, h, List.splitOn_intercalate]
  · simp [List.map_map, Function.comp_def]
  · intro l hl
    obtain ⟨segment, hs, rfl⟩ := List.mem_map.mp hl
    exact hdot segment hs
  · simpa using hne

private theorem separator_not_mem_of_mem_splitChars {text segment : List Char}
    (h : segment ∈ splitChars text) : separator ∉ segment := by
  induction text generalizing segment with
  | nil => simp_all [splitChars]
  | cons c rest ih =>
    simp only [splitChars] at h
    split at h
    · rcases List.mem_cons.mp h with rfl | h
      · exact List.not_mem_nil
      · exact ih h
    · next hc =>
      split at h
      · rcases List.mem_singleton.mp h with rfl
        simpa using Ne.symm hc
      · next first more hsplit =>
        rw [hsplit] at ih
        rcases List.mem_cons.mp h with rfl | h
        · simpa using ⟨Ne.symm hc, ih List.mem_cons_self⟩
        · exact ih (List.mem_cons_of_mem _ h)

private theorem separator_not_mem_segment {path segment : String} (h : segment ∈ splitPath path) :
    separator ∉ segment.toList := by
  obtain ⟨chars, hc, rfl⟩ := List.mem_map.mp h
  rw [String.toList_ofList]
  exact separator_not_mem_of_mem_splitChars hc

/-- Extending a path by keys puts a separator before each of them. -/
theorem toList_joinKeys {path : String} (list : List Text) (h : path ≠ "") :
    (joinKeys path list).toList
      = [separator].intercalate (path.toList :: list.map fun key ↦ key.bare.toList) := by
  induction list generalizing path with
  | nil => simp [joinKeys]
  | cons key rest ih =>
    have hjoin : joinPath path key.bare
        = String.ofList (path.toList ++ separator :: key.bare.toList) := by
      simp [joinPath, h]
    have hne : joinPath path key.bare ≠ "" := by
      intro he
      have hl := congrArg String.toList (hjoin.symm.trans he)
      simp at hl
    have hstep : joinKeys path (key :: rest) = joinKeys (joinPath path key.bare) rest := rfl
    rw [hstep, ih hne, hjoin, String.toList_ofList, List.map_cons]
    cases rest with
    | nil => simp [List.intercalate_cons_cons]
    | cons next more => simp [List.intercalate_cons_cons]

private theorem quoted_bare {t : Text} (h : t.isLiteral = false) : Text.quoted t.bare = t := by
  have ht := Text.tagged_bare_isLiteral t
  rw [h] at ht
  exact ht

/-- A path has a first segment. -/
theorem exists_splitPath (path : String) : ∃ first rest, splitPath path = first :: rest := by
  cases h : splitPath path with
  | nil => exact absurd (List.map_eq_nil_iff.mp h) (splitChars_ne_nil _)
  | cons first rest => exact ⟨first, rest, rfl⟩

/-- The first of several segments is not empty unless the path starts with a separator. -/
theorem first_segment_ne_empty {path first : String} {rest : List String}
    (hsplit : splitPath path = first :: rest) (hrest : rest ≠ [])
    (h : path.toList.head? ≠ some separator) : first ≠ "" := by
  rintro rfl
  apply h
  rw [← intercalate_splitPath, hsplit]
  cases rest with
  | nil => exact absurd rfl hrest
  | cons next more => simp [List.intercalate_cons_cons]

/-- A path with the marks that its flat key keeps: only that of the first key. -/
def rootMarked : List Text → List Text
  | [] => []
  | head :: rest => head :: rest.map fun key ↦ .quoted key.bare

/-- The flat key of a path without dots is split into the texts of its keys again. -/
theorem pathOf_flatKey_eq_rootMarked {path : List Text} (hne : path ≠ [])
    (hdot : ∀ key ∈ path, separator ∉ key.bare.toList)
    (hnamed : ∀ key ∈ path.head?, path.tail ≠ [] → key.bare ≠ "") :
    pathOf (flatKey path) = rootMarked path := by
  cases path with
  | nil => exact absurd rfl hne
  | cons head rest =>
    have hchars : (joinKeys head.bare rest).toList
        = [separator].intercalate (((head :: rest).map Text.bare).map String.toList) := by
      cases rest with
      | nil => simp [joinKeys]
      | cons next more =>
        have hne : head.bare ≠ "" := hnamed head rfl (by simp)
        simpa [List.map_map, Function.comp_def] using toList_joinKeys (next :: more) hne
    have hsplit : splitPath (joinKeys head.bare rest) = (head :: rest).map Text.bare := by
      apply splitPath_of_intercalate (by simp) _ hchars
      intro segment hs
      obtain ⟨key, hk, rfl⟩ := List.mem_map.mp hs
      exact hdot key hk
    simp only [flatKey, pathOf, rootMarked, Text.bare_tagged, Text.isLiteral_tagged, hsplit,
      List.map_cons, Text.tagged_bare_isLiteral, List.map_map]
    rfl

/-- The flat key of an addressable path is split into the keys of the path again. -/
theorem pathOf_flatKey {path : List Text} (h : Addressable path) :
    pathOf (flatKey path) = path := by
  rw [pathOf_flatKey_eq_rootMarked h.ne_nil h.dotless h.named]
  cases path with
  | nil => rfl
  | cons head rest =>
    have hquoted : ∀ key ∈ rest, Text.quoted key.bare = key :=
      fun key hk ↦ quoted_bare (h.quoted key hk)
    rw [rootMarked, List.map_congr_left hquoted, List.map_id']

/-- A flat key that does not start with a separator spells an addressable path. -/
theorem addressable_pathOf {key : Text} (h : key.bare.toList.head? ≠ some separator) :
    Addressable (pathOf key) := by
  obtain ⟨first, rest, hsplit⟩ := exists_splitPath key.bare
  have hpath : pathOf key = .tagged first key.isLiteral :: rest.map .quoted := by
    simp only [pathOf, hsplit]
  have hdot : ∀ segment ∈ first :: rest, separator ∉ segment.toList := by
    intro segment hs
    exact separator_not_mem_segment (hsplit ▸ hs)
  rw [hpath]
  constructor
  · simp
  · intro k hk
    rcases List.mem_cons.mp hk with rfl | hk
    · rw [Text.bare_tagged]
      exact hdot first List.mem_cons_self
    · obtain ⟨segment, hs, rfl⟩ := List.mem_map.mp hk
      exact hdot segment (List.mem_cons_of_mem _ hs)
  · intro k hk
    obtain ⟨segment, -, rfl⟩ := List.mem_map.mp hk
    rfl
  · intro k hk hrest
    rw [List.head?_cons, Option.mem_some_iff] at hk
    rw [← hk, Text.bare_tagged]
    exact first_segment_ne_empty hsplit (by simpa using hrest) h

/-- A flat key that does not start with a separator is the flat key of the path it spells. -/
theorem flatKey_pathOf {key : Text} (h : key.bare.toList.head? ≠ some separator) :
    flatKey (pathOf key) = key := by
  obtain ⟨first, rest, hsplit⟩ := exists_splitPath key.bare
  have hjoin : joinKeys first (rest.map .quoted) = key.bare := by
    rw [← String.toList_inj, ← intercalate_splitPath key.bare, hsplit]
    cases rest with
    | nil => simp [joinKeys]
    | cons next more =>
      rw [toList_joinKeys _ (first_segment_ne_empty hsplit (by simp) h)]
      simp [List.map_map, Function.comp_def, Text.bare]
  simp only [pathOf, hsplit, flatKey, Text.bare_tagged, Text.isLiteral_tagged, hjoin,
    Text.tagged_bare_isLiteral]

/-- Every flat key spells a path of at least one key. -/
theorem pathOf_ne_nil (key : Text) : pathOf key ≠ [] := by
  obtain ⟨first, rest, hsplit⟩ := exists_splitPath key.bare
  simp [pathOf, hsplit]

/-- The path of one flat key starts with that of another when the marks agree and the segments of
the one start with those of the other. -/
theorem pathOf_prefix_iff (key other : Text) :
    pathOf key <+: pathOf other
      ↔ key.isLiteral = other.isLiteral ∧ splitPath key.bare <+: splitPath other.bare := by
  obtain ⟨first, rest, hsplit⟩ := exists_splitPath key.bare
  obtain ⟨first', rest', hsplit'⟩ := exists_splitPath other.bare
  have hquoted : Function.Injective Text.quoted := fun _ _ h ↦ Text.quoted.inj h
  simp only [pathOf, hsplit, hsplit', List.cons_prefix_cons,
    List.prefix_map_iff_of_injective hquoted]
  constructor
  · rintro ⟨htag, hrest⟩
    have hbare := congrArg Text.bare htag
    have hmark := congrArg Text.isLiteral htag
    rw [Text.bare_tagged, Text.bare_tagged] at hbare
    rw [Text.isLiteral_tagged, Text.isLiteral_tagged] at hmark
    exact ⟨hmark, hbare, hrest⟩
  · rintro ⟨hmark, hbare, hrest⟩
    exact ⟨by rw [hmark, hbare], hrest⟩

/-- Different flat keys spell different paths. -/
theorem pathOf_injective {key other : Text} (h : pathOf key = pathOf other) : key = other := by
  obtain ⟨hmark, hprefix⟩ := (pathOf_prefix_iff key other).mp (h ▸ List.prefix_rfl)
  obtain ⟨-, hprefix'⟩ := (pathOf_prefix_iff other key).mp (h ▸ List.prefix_rfl)
  have hsplit : splitPath key.bare = splitPath other.bare :=
    hprefix.eq_of_length_le hprefix'.length_le
  have hbare : key.bare = other.bare := by
    rw [← String.toList_inj, ← intercalate_splitPath, hsplit, intercalate_splitPath]
  exact Text.ext hbare hmark

/-- Storing under a flat key is placing at the path that it spells. -/
theorem insertFlat_eq_place (key : Text) (value : Value) (tree : Tree) :
    insertFlat key value tree = place value (pathOf key) tree := by
  obtain ⟨first, rest, hsplit⟩ := exists_splitPath key.bare
  simp only [insertFlat, pathOf, hsplit, insertPath_eq_place]

end LayeredConfig.Tree
