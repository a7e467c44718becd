import LayeredConfig.Proofs.Code.Stripping
import LayeredConfig.Tree.Filter

/-!
# The main key and the stem

Below a quoted main key with a text, every dotted key has the main key and a dot in front. Stripping
the stem undoes just that when the stem is the main key, so flat code comes out the same whether the
filter unwraps the main key or keeps it for the stem.
-/

namespace LayeredConfig.Tree

/-! ### Dotted keys below a root key -/

/-- A flat key with a text and a dot in front of it. -/
def wrapKey (text : String) (key : Text) : Text := .tagged (text ++ "." ++ key.bare) key.isLiteral

private theorem wrapKey_injective (text : String) : Function.Injective (wrapKey text) := by
  intro key other h
  have hmark := congrArg Text.isLiteral h
  have hbare := congrArg Text.bare h
  rw [wrapKey, wrapKey, Text.isLiteral_tagged, Text.isLiteral_tagged] at hmark
  rw [wrapKey, wrapKey, Text.bare_tagged, Text.bare_tagged, String.append_right_inj] at hbare
  exact Text.ext hbare hmark

/-- A path whose first key has a text is joined whole. -/
theorem bare_dottedKey {head : Text} (rest : List Text) (h : head.bare ≠ "") :
    (dottedKey (head :: rest)).bare = ".".intercalate ((head :: rest).map Text.bare) := by
  rw [dottedKey, Text.bare_tagged, List.map_cons, List.dropWhile_cons_of_neg (by simpa using h)]

private theorem bare_dottedKey_ne_empty {head : Text} (rest : List Text) (h : head.bare ≠ "") :
    (dottedKey (head :: rest)).bare ≠ "" := by
  rw [bare_dottedKey rest h]
  cases rest with
  | nil => simpa using h
  | cons next more => simp [h]

private theorem dottedKey_quoted_cons {text : String} (htext : text ≠ "") {head : Text}
    (rest : List Text)
    (hquoted : head.isLiteral = false) (hnamed : head.bare ≠ "") :
    dottedKey (.quoted text :: head :: rest) = wrapKey text (dottedKey (head :: rest)) := by
  have hroot : (Text.quoted text).bare ≠ "" := htext
  have hbare : (dottedKey (.quoted text :: head :: rest)).bare
      = text ++ "." ++ (dottedKey (head :: rest)).bare := by
    rw [bare_dottedKey _ hroot, bare_dottedKey rest hnamed, List.map_cons,
      String.intercalate_cons_of_ne_nil (by simp)]
    rfl
  have hmark : (dottedKey (head :: rest)).isLiteral = false := by
    rw [dottedKey, Text.isLiteral_tagged]
    simpa using hquoted
  apply Text.ext
  · rw [hbare, wrapKey, Text.bare_tagged]
  · rw [wrapKey, hmark]
    rfl

private theorem flatten_below {text : String} (htext : text ≠ "") {below : Tree}
    (hquoted : ∀ key ∈ Entries.keys below, key.isLiteral = false)
    (hnamed : ∀ key ∈ Entries.keys below, key.bare ≠ "") :
    flatten [(.quoted text, .tree below)] = (flatten below).map (Prod.map (wrapKey text) id) := by
  have hleaves : dottedLeaves [(.quoted text, .tree below)]
      = (dottedLeaves below).map (Prod.map (wrapKey text) id) := by
    rw [dottedLeaves, dottedLeaves, leaves_branch, leaves_nil, List.append_nil, List.map_map,
      List.map_map]
    refine List.map_congr_left fun leaf hleaf ↦ ?_
    obtain ⟨head, hhead, rest, hpath⟩ := exists_head_of_mem_leaves hleaf
    have hkey := dottedKey_quoted_cons htext rest (hquoted head hhead) (hnamed head hhead)
    rw [← hpath] at hkey
    exact Prod.ext hkey rfl
  rw [flatten_eq_ofList_dottedLeaves, flatten_eq_ofList_dottedLeaves, hleaves,
    Entries.ofList_map (wrapKey_injective text)]

private theorem bare_ne_empty_of_mem_flatten {tree : Tree}
    (h : ∀ key ∈ Entries.keys tree, key.bare ≠ "")
    {entry : Text × Value} (he : entry ∈ flatten tree) : entry.1.bare ≠ "" := by
  obtain ⟨leaf, hleaf, rfl⟩ := exists_leaf_of_mem_flatten he
  obtain ⟨head, hhead, rest, hpath⟩ := exists_head_of_mem_leaves hleaf
  rw [hpath]
  exact bare_dottedKey_ne_empty rest (h head hhead)

end LayeredConfig.Tree

namespace LayeredConfig.Code

open LayeredConfig.Tree (flatten wrapKey)

private theorem Segment.strip_wrapKey (segment : Segment) {key : Text} (h : key.bare ≠ "") :
    segment.strip (wrapKey segment.stem key) = key := by
  have hafter : segment.afterStem? (wrapKey segment.stem key).bare = some key.bare := by
    rw [afterStem?_eq_some_iff, wrapKey, Text.bare_tagged]
    exact ⟨h, rfl⟩
  rw [strip_of_some segment hafter, wrapKey, Text.isLiteral_tagged, Text.tagged_bare_isLiteral]

/-- What lies below a main key, where unwrapping it and stripping it do the same: the main key has a
text, the keys right below it are quoted and have texts, and no flat key below it starts with the
main key, a dot and more. -/
structure Unwrappable (mainKey : String) (below : Tree) : Prop where
  named : mainKey ≠ ""
  nonempty : below ≠ []
  quoted : ∀ key ∈ Entries.keys below, key.isLiteral = false
  namedBelow : ∀ key ∈ Entries.keys below, key.bare ≠ ""
  unwrapped : ∀ key ∈ Entries.keys (flatten below), ∀ rest, rest ≠ "" →
    key.bare ≠ mainKey ++ "." ++ rest

private theorem Unwrappable.assigned_eq {segment : Segment} {below : Tree}
    (h : Unwrappable segment.stem below) :
    assigned segment [(.quoted segment.stem, .tree below)] = assigned segment below := by
  rw [assigned, Tree.flatten_below h.named h.quoted h.namedBelow, List.map_map]
  refine List.map_congr_left fun entry he ↦ Prod.ext ?_ rfl
  have hnone : segment.afterStem? entry.1.bare = none :=
    (segment.afterStem?_eq_none_iff _).mpr (h.unwrapped entry.1 (List.mem_map_of_mem he))
  have hstripped := segment.strip_wrapKey (Tree.bare_ne_empty_of_mem_flatten h.namedBelow he)
  exact hstripped.trans (segment.strip_of_none hnone).symm

/-- **Unwrapping and stripping agree.** With a segment whose stem is the main key, flat code for a
tree that holds nothing beside the main key is the same, text or error, whether the filter keeps the
main key or goes below it. -/
theorem generate_mainKey_eq {mainKey : String} {below : Tree} (h : Unwrappable mainKey below)
    {segment : Segment} (hstem : segment.stem = mainKey) :
    Tree.applyFilters [] true [(.quoted mainKey, .tree below)]
        = .ok [(.quoted mainKey, .tree below)] ∧
      Tree.applyFilters [] false [(.quoted mainKey, .tree below)] = .ok below ∧
      (Generator.flat segment).generate [(.quoted mainKey, .tree below)]
        = (Generator.flat segment).generate below := by
  subst hstem
  have hunwrapped : Tree.applyFilters [] false [(.quoted segment.stem, .tree below)]
      = .ok below := by
    cases below with
    | nil => exact absurd rfl h.nonempty
    | cons entry rest => rfl
  refine ⟨rfl, hunwrapped, ?_⟩
  rw [Generator.generate, Generator.generate, flat_eq_mapM_assigned, flat_eq_mapM_assigned,
    h.assigned_eq]

/-- What lies below a main key `app`: dotted keys that collide, empty texts, a dropped mark, the
main key once more without anything behind its dot, and a leaf that is given. -/
def belowApp (last : Scalar) : Tree :=
  [(.quoted "db", .tree [(.quoted "", .scalar (.integer 1)), (.literal "port", .scalar .null)]),
    (.quoted "db.port", .scalar (.integer 5432)), (.quoted "app", .scalar (.text (.literal "X"))),
    (.quoted "app.", .scalar last)]

private theorem unwrappable_belowApp (last : Scalar) : Unwrappable "app" (belowApp last) where
  named := by decide
  nonempty := nofun
  quoted := by simp [belowApp, Entries.keys, Text.isLiteral]
  namedBelow := by simp [belowApp, Entries.keys, Text.bare]
  unwrapped := by
    have hkeys : Entries.keys (flatten (belowApp last))
        = [.quoted "db.", .quoted "db.port", .quoted "app", .quoted "app."] := by rfl
    have hnone : ∀ key ∈ Entries.keys (flatten (belowApp last)),
        Segment.afterStem? ⟨"$app", "app"⟩ key.bare = none := by
      rw [hkeys]
      decide
    exact fun key hkey ↦ (Segment.afterStem?_eq_none_iff _ _).mp (hnone key hkey)

/-- Unwrapped or stripped, the code is the same, and so is the refusal of a number. -/
theorem generate_mainKey_eq_belowApp :
    Unwrappable "app" (belowApp (.bool true)) ∧ Unwrappable "app" (belowApp (.float .nan)) ∧
      Segment.parse "$cfg['app']" = .ok ⟨"$cfg['app']", "app"⟩ ∧
      (Generator.flat ⟨"$cfg['app']", "app"⟩).generate
          [(.quoted "app", .tree (belowApp (.bool true)))]
        = .ok (renderLines [⟨"$cfg['app']['db.']", "1"⟩, ⟨"$cfg['app']['db.port']", "5432"⟩,
            ⟨"$cfg['app']['app']", "X"⟩, ⟨"$cfg['app']['app.']", "true"⟩]) ∧
      (Generator.flat ⟨"$cfg['app']", "app"⟩).generate
          [(.quoted "app", .tree (belowApp (.float .nan)))]
        = .error (.nonFinite "$cfg['app']['app.']" .nan) := by
  have htrue := unwrappable_belowApp (.bool true)
  have hnan := unwrappable_belowApp (.float .nan)
  have hstem : (⟨"$cfg['app']", "app"⟩ : Segment).stem = "app" := rfl
  obtain ⟨-, -, hcode⟩ := generate_mainKey_eq htrue hstem
  obtain ⟨-, -, hrefused⟩ := generate_mainKey_eq hnan hstem
  exact ⟨htrue, hnan, by decide, hcode.trans (by decide), hrefused.trans (by decide)⟩

end LayeredConfig.Code
