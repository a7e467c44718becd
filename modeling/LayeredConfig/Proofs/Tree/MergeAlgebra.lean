import LayeredConfig.Proofs.Tree.Lookup
import LayeredConfig.Proofs.Tree.MergedValues
import Mathlib.Data.List.Induction

/-!
# The algebra of deep merge

The empty tree is neutral for merging, and a tree laid over itself stays as it is. Merging is
associative as long as no leaf of the tree in the middle severs a tree below it from a tree above
it. So in a list of documents one that follows itself counts once, and a consecutive part of the
list can be merged first.
-/

namespace LayeredConfig.Tree

/-! ### Well-keyed merges -/

private theorem WellKeyed.branchOf_find? {tree : Tree} (h : WellKeyed tree) (key : Text) :
    WellKeyed (branchOf (Entries.find? key tree)) := by
  match hfind : Entries.find? key tree with
  | none => exact wellKeyed_nil
  | some (.scalar s) => exact wellKeyed_nil
  | some (.tree below) => exact h.of_find? hfind

/-- Merging well-keyed trees gives a well-keyed one. -/
theorem WellKeyed.merge {base overlay : Tree} (hbase : WellKeyed base)
    (hoverlay : WellKeyed overlay) : WellKeyed (merge base overlay) := by
  induction overlay using induct generalizing base with
  | nil => rwa [merge_nil]
  | leaf key s rest ih =>
    obtain ⟨-, hrest⟩ := (wellKeyed_leaf key s rest).mp hoverlay
    rw [merge_cons]
    refine ih (hbase.alter ?_) hrest
    rw [mergeValue_scalar]
    trivial
  | branch key below rest ihbelow ihrest =>
    obtain ⟨-, hbelow, hrest⟩ := (wellKeyed_branch key below rest).mp hoverlay
    rw [merge_cons]
    refine ihrest (hbase.alter ?_) hrest
    rw [mergeValue_tree _ hbelow.1]
    exact ihbelow (hbase.branchOf_find? key) hbelow

/-- Merging well-keyed trees in order over a well-keyed one gives a well-keyed one. -/
theorem WellKeyed.mergeAll {base : Tree} {overlays : List Tree} (hbase : WellKeyed base)
    (hoverlays : ∀ overlay ∈ overlays, WellKeyed overlay) :
    WellKeyed (mergeAll base overlays) := by
  induction overlays generalizing base with
  | nil => exact hbase
  | cons overlay rest ih =>
    obtain ⟨hoverlay, hrest⟩ := List.forall_mem_cons.mp hoverlays
    exact ih (hbase.merge hoverlay) hrest

/-! ### Idempotence -/

/-- A tree laid over itself stays as it is. -/
theorem merge_self {tree : Tree} (h : WellKeyed tree) : merge tree tree = tree := by
  induction tree using induct_branches with
  | step tree ih =>
    refine Entries.ext_of_find? (distinct_merge h.1 tree) ?_ fun key ↦ ?_
    · rw [keys_merge tree h.1, List.filter_eq_nil_iff.mpr (by simp), List.append_nil]
    · rw [find?_merge tree h.1]
      match hfind : Entries.find? key tree with
      | none => rfl
      | some (.scalar s) => rw [layOver, mergeValue_scalar]
      | some (.tree below) => rw [layOver_tree_tree, ih key below hfind (h.of_find? hfind)]

/-! ### Associativity -/

/-- Whether a tree holds a leaf at a path where the tree below it and the tree above it both hold
trees. -/
def Severed (lower middle upper : Tree) : Prop :=
  ∃ path below s above, valueAt path lower = some (.tree below) ∧
    valueAt path middle = some (.scalar s) ∧ valueAt path upper = some (.tree above)

private theorem severed_of_find? {lower middle upper : Tree} {key : Text}
    {below between above : Tree}
    (hlower : Entries.find? key lower = some (.tree below))
    (hmiddle : Entries.find? key middle = some (.tree between))
    (hupper : Entries.find? key upper = some (.tree above)) (h : Severed below between above) :
    Severed lower middle upper := by
  have hbelow : ∀ {tree inner : Tree}, Entries.find? key tree = some (.tree inner) →
      ∀ path, valueAt (key :: path) tree = valueAt path inner := by
    intro tree inner hfind path
    rw [valueAt, get, branchOf_tree, hfind]
    rfl
  obtain ⟨path, lowest, s, highest, hl, hm, hu⟩ := h
  exact ⟨key :: path, lowest, s, highest, (hbelow hlower path).trans hl,
    (hbelow hmiddle path).trans hm, (hbelow hupper path).trans hu⟩

/-- Whether a tree holds a tree at a path. -/
def holdsTree (path : List Text) (tree : Tree) : Bool := (valueAt path tree).any Value.isTree

private theorem holdsTree_iff (path : List Text) (tree : Tree) :
    holdsTree path tree ↔ ∃ below, valueAt path tree = some (.tree below) := by
  rw [holdsTree]
  match valueAt path tree with
  | none => simp
  | some (.scalar s) => simp [Value.isTree]
  | some (.tree below) => simp [Value.isTree]

private theorem severed_iff {middle : Tree} (h : WellKeyed middle) (lower upper : Tree) :
    Severed lower middle upper ↔
      ∃ leaf ∈ leaves middle, holdsTree leaf.1 lower ∧ holdsTree leaf.1 upper := by
  simp only [holdsTree_iff]
  constructor
  · rintro ⟨path, below, s, above, hlower, hleaf, hupper⟩
    exact ⟨(path, .scalar s), List.mem_filter.mpr ⟨mem_tips_of_get hleaf, rfl⟩, ⟨below, hlower⟩,
      above, hupper⟩
  · rintro ⟨leaf, hleaf, ⟨below, hlower⟩, above, hupper⟩
    obtain ⟨s, hs⟩ := exists_scalar_of_mem_leaves hleaf
    have hget := get_of_mem_tips h (mem_tips_of_mem_leaves hleaf)
    rw [hs] at hget
    exact ⟨leaf.1, below, s, above, hlower, hget, hupper⟩

private theorem layOver_assoc {lower middle upper : Option Value}
    (hleaf : ∀ below s above, lower = some (.tree below) → middle = some (.scalar s) →
      upper ≠ some (.tree above))
    (htrees : ∀ below between above, lower = some (.tree below) → middle = some (.tree between) →
      upper = some (.tree above) →
        merge (merge below between) above = merge below (merge between above)) :
    layOver (layOver lower middle) upper = layOver lower (layOver middle upper) := by
  rcases upper with - | ⟨s | above⟩
  · rfl
  · simp only [layOver, mergeValue_scalar]
  rcases middle with - | ⟨s | between⟩
  · rfl
  · -- the leaf gives way to the tree above it, under which there is no tree
    have hlower : ∀ below, lower ≠ some (.tree below) :=
      fun below hb ↦ hleaf below s above hb rfl rfl
    have hover : mergeValue (some (.scalar s)) (.tree above) = .tree above :=
      mergeValue_tree_of_not_tree above (by simp)
    simp only [layOver, mergeValue_scalar, hover, mergeValue_tree_of_not_tree above hlower]
  rcases lower with - | ⟨s | below⟩
  · simp only [layOver, mergeValue]
  · simp only [layOver, mergeValue]
  · rw [layOver_tree_tree, layOver_tree_tree, layOver_tree_tree, layOver_tree_tree,
      htrees below between above rfl rfl rfl]

/-- Merging is associative where the tree in the middle severs nothing. -/
theorem merge_assoc {lower middle upper : Tree} (hlower : WellKeyed lower)
    (hmiddle : WellKeyed middle) (hupper : WellKeyed upper) (h : ¬ Severed lower middle upper) :
    merge (merge lower middle) upper = merge lower (merge middle upper) := by
  induction upper using induct_branches generalizing lower middle with
  | step upper ih =>
    have hboth := hmiddle.merge hupper
    have hdistinct := distinct_merge (distinct_merge hlower.1 middle) upper
    refine Entries.ext_of_find? hdistinct ?_ fun key ↦ ?_
    · -- new keys of the upper tree are new to both other trees
      rw [keys_merge _ hupper.1, keys_merge _ hmiddle.1, keys_merge _ hboth.1,
        keys_merge _ hupper.1, List.filter_append, List.filter_filter, List.append_assoc]
      congr 2
      refine List.filter_congr fun key _ ↦ ?_
      by_cases hkey : key ∈ Entries.keys lower <;> simp [hkey]
    · rw [find?_merge _ hupper.1, find?_merge _ hmiddle.1, find?_merge _ hboth.1,
        find?_merge _ hupper.1]
      apply layOver_assoc
      · intro below s above hl hm hu
        refine h ⟨[key], below, s, above, ?_, ?_, ?_⟩
        · exact hl
        · exact hm
        · exact hu
      · intro below between above hl hm hu
        exact ih key above hu (hlower.of_find? hl) (hmiddle.of_find? hm) (hupper.of_find? hu)
          fun hs ↦ h (severed_of_find? hl hm hu hs)

/-! ### Lists of documents -/

/-- The last document is laid over what those before it give. -/
theorem mergeAll_concat (base : Tree) (docs : List Tree) (doc : Tree) :
    mergeAll base (docs ++ [doc]) = merge (mergeAll base docs) doc := by
  rw [mergeAll, List.foldl_append]
  rfl

/-- Two parts of a list are merged one after the other. -/
theorem mergeAll_append (base : Tree) (docs others : List Tree) :
    mergeAll base (docs ++ others) = mergeAll (mergeAll base docs) others :=
  List.foldl_append

private theorem mergeAll_twice {before : List Tree} {doc : Tree}
    (hbefore : ∀ other ∈ before, WellKeyed other) (hdoc : WellKeyed doc) (after : List Tree) :
    mergeAll [] (before ++ doc :: doc :: after) = mergeAll [] (before ++ doc :: after) := by
  have hearlier := wellKeyed_nil.mergeAll hbefore
  -- a document holds no leaf where it holds a tree, so it severs nothing from itself
  have hwhole : ¬ Severed (mergeAll [] before) doc doc := by
    rintro ⟨path, below, s, above, -, hleaf, htree⟩
    rw [hleaf] at htree
    cases htree
  have htwice : merge (merge (mergeAll [] before) doc) doc = merge (mergeAll [] before) doc := by
    rw [merge_assoc hearlier hdoc hdoc hwhole, merge_self hdoc]
  rw [mergeAll_append, mergeAll_append]
  exact congrArg (mergeAll · after) htwice

private theorem exists_of_valueAt_merge {base overlay : Tree} (h : WellKeyed overlay)
    {path : List Text}
    {value : Value} (hvalue : valueAt path (merge base overlay) = some value) :
    (∃ held, valueAt path base = some held ∧ held.isTree = value.isTree) ∨
      ∃ held, valueAt path overlay = some held ∧ held.isTree = value.isTree := by
  by_cases hleaf : BelowLeaf path (some (.tree overlay))
  · rw [valueAt_merge_of_belowLeaf base h hleaf] at hvalue
    cases hvalue
  · rw [valueAt_merge_of_not_belowLeaf base h hleaf] at hvalue
    match hover : valueAt path overlay with
    | none =>
      rw [hover] at hvalue
      exact .inl ⟨value, hvalue, rfl⟩
    | some (.scalar s) =>
      rw [hover, layOver, mergeValue_scalar] at hvalue
      cases hvalue
      exact .inr ⟨_, rfl, rfl⟩
    | some (.tree above) =>
      rw [hover, layOver_tree _ (h.of_valueAt hover).1] at hvalue
      cases hvalue
      exact .inr ⟨_, rfl, rfl⟩

private theorem exists_of_valueAt_mergeAll {docs : List Tree} (h : ∀ doc ∈ docs, WellKeyed doc)
    {path : List Text} (hpath : path ≠ []) {value : Value}
    (hvalue : valueAt path (mergeAll [] docs) = some value) :
    ∃ doc ∈ docs, ∃ held, valueAt path doc = some held ∧ held.isTree = value.isTree := by
  induction docs using List.reverseRecOn generalizing value with
  | nil =>
    cases path with
    | nil => exact absurd rfl hpath
    | cons key path =>
      have hnone : valueAt (key :: path) (mergeAll [] []) = none := get_cons_empty key path
      rw [hnone] at hvalue
      cases hvalue
  | append_singleton docs doc ih =>
    obtain ⟨hdocs, hdoc⟩ := List.forall_mem_append.mp h
    rw [mergeAll_concat] at hvalue
    rcases exists_of_valueAt_merge (hdoc doc (List.mem_singleton_self doc)) hvalue with
      ⟨held, hheld, hkind⟩ | ⟨held, hheld, hkind⟩
    · obtain ⟨other, hother, found, hfound, hsame⟩ := ih hdocs hheld
      exact ⟨other, List.mem_append_left _ hother, found, hfound, hsame.trans hkind⟩
    · exact ⟨doc, List.mem_append_right _ (List.mem_singleton_self doc), held, hheld, hkind⟩

/-- Whether no document of a list holds a leaf at a path where an earlier one and a later one both
hold trees. -/
def Unsevered (docs : List Tree) : Prop :=
  ∀ lower middle upper, [lower, middle, upper].Sublist docs → ¬ Severed lower middle upper

private theorem Unsevered.not_severed {before between after : List Tree} {upper : Tree}
    (h : Unsevered (before ++ between ++ upper :: after))
    (hkeys : ∀ doc ∈ before ++ between, WellKeyed doc) :
    ¬ Severed (mergeAll [] before) (mergeAll [] between) upper := by
  rintro ⟨path, below, s, above, hbelow, hleaf, habove⟩
  obtain ⟨hbefore, hbetween⟩ := List.forall_mem_append.mp hkeys
  have hpath : path ≠ [] := by
    rintro rfl
    cases hleaf
  obtain ⟨lower, hlower, held, hheld, hkind⟩ := exists_of_valueAt_mergeAll hbefore hpath hbelow
  obtain ⟨middle, hmiddle, found, hfound, hkind'⟩ :=
    exists_of_valueAt_mergeAll hbetween hpath hleaf
  match held, found with
  | .tree below', .scalar s' =>
    have hsub : [lower, middle, upper].Sublist (before ++ between ++ upper :: after) :=
      ((List.singleton_sublist.mpr hlower).append (List.singleton_sublist.mpr hmiddle)).append
        ((List.nil_sublist after).cons_cons upper)
    exact h lower middle upper hsub ⟨path, below', s', above, hheld, hfound, habove⟩
  | .scalar _, _ => cases hkind
  | _, .tree _ => cases hkind'

private theorem merge_mergeAll {base : Tree} (hbase : WellKeyed base) {part : List Tree}
    (hpart : ∀ doc ∈ part, WellKeyed doc)
    (h : ∀ between upper after, part = between ++ upper :: after →
      ¬ Severed base (mergeAll [] between) upper) :
    merge base (mergeAll [] part) = mergeAll base part := by
  induction part using List.reverseRecOn with
  | nil => exact merge_nil base
  | append_singleton part doc ih =>
    obtain ⟨hfirst, hlast⟩ := List.forall_mem_append.mp hpart
    have hdoc := hlast doc (List.mem_singleton_self doc)
    have hmerged := wellKeyed_nil.mergeAll hfirst
    have hearlier := ih hfirst fun between upper after hsplit ↦
      h between upper (after ++ [doc]) (by rw [hsplit, List.append_assoc, List.cons_append])
    rw [mergeAll_concat, mergeAll_concat, ← hearlier]
    exact (merge_assoc hbase hmerged hdoc (h part doc [] rfl)).symm

/-- **The algebra of deep merge.** Merging is associative where no leaf in the middle severs two
trees, the empty tree is neutral, and a tree laid over itself stays as it is. So giving a document
twice in a row changes nothing, and in a list that nothing severs any consecutive part can be merged
first. -/
theorem merge_algebra :
    (∀ lower middle upper, WellKeyed lower → WellKeyed middle → WellKeyed upper →
        ¬ Severed lower middle upper →
          merge (merge lower middle) upper = merge lower (merge middle upper)) ∧
      (∀ tree, WellKeyed tree →
        merge [] tree = tree ∧ merge tree [] = tree ∧ merge tree tree = tree) ∧
      (∀ before doc after, (∀ other ∈ before ++ doc :: after, WellKeyed other) →
        mergeAll [] (before ++ doc :: doc :: after) = mergeAll [] (before ++ doc :: after)) ∧
      ∀ before part after, (∀ doc ∈ before ++ part ++ after, WellKeyed doc) →
        Unsevered (before ++ part ++ after) →
          mergeAll [] (before ++ mergeAll [] part :: after)
            = mergeAll [] (before ++ part ++ after) := by
  refine ⟨fun _ _ _ hl hm hu h ↦ merge_assoc hl hm hu h, ?_, ?_, ?_⟩
  · intro tree h
    exact ⟨merge_empty h.1, merge_nil tree, merge_self h⟩
  · intro before doc after h
    obtain ⟨hbefore, hrest⟩ := List.forall_mem_append.mp h
    exact mergeAll_twice hbefore (List.forall_mem_cons.mp hrest).1 after
  · intro before part after h hwhole
    obtain ⟨hfirst, -⟩ := List.forall_mem_append.mp h
    obtain ⟨hbefore, hpart⟩ := List.forall_mem_append.mp hfirst
    have hlaid : merge (mergeAll [] before) (mergeAll [] part)
        = mergeAll (mergeAll [] before) part := by
      refine merge_mergeAll (wellKeyed_nil.mergeAll hbefore) hpart ?_
      rintro between upper rest rfl
      have hsame : before ++ (between ++ upper :: rest) ++ after
          = before ++ between ++ upper :: (rest ++ after) := by simp
      rw [hsame] at hwhole
      refine hwhole.not_severed fun doc hd ↦ hfirst doc ?_
      rw [← List.append_assoc]
      exact List.mem_append_left _ hd
    rw [mergeAll_append, mergeAll_append, mergeAll_append, ← hlaid]
    rfl

/-- A document with a leaf, a branch and a leaf below it. -/
def baseLayer : Tree :=
  [(.quoted "log", .scalar .null),
    (.quoted "db", .tree [(.quoted "host", .scalar (.bool true)), (.literal "pool", .tree [])])]

/-- A document that makes branches of both leaves and adds a leaf. -/
def middleLayer : Tree :=
  [(.quoted "mode", .scalar (.integer 1)),
    (.quoted "db", .tree [(.quoted "host", .tree [(.quoted "name", .scalar .null)])]),
    (.quoted "log", .tree [(.quoted "level", .scalar (.integer 3))])]

/-- A document that replaces a branch by a leaf and the added leaf by a branch. -/
def topLayer : Tree :=
  [(.quoted "mode", .tree [(.quoted "name", .scalar .null)]), (.quoted "log", .scalar (.integer 2)),
    (.quoted "db", .tree [(.literal "pool", .tree [(.quoted "min", .scalar (.integer 1))]),
      (.quoted "host", .tree [(.quoted "port", .scalar (.integer 5432))])])]

/-- Three documents in which leaves and branches replace each other are merged in either grouping,
and the one in the middle counts once. -/
theorem merge_algebra_layers :
    (WellKeyed baseLayer ∧ WellKeyed middleLayer ∧ WellKeyed topLayer) ∧
      ¬ Severed baseLayer middleLayer topLayer ∧
      merge (merge baseLayer middleLayer) topLayer
        = merge baseLayer (merge middleLayer topLayer) ∧
      merge middleLayer middleLayer = middleLayer ∧
      mergeAll [] [baseLayer, middleLayer, middleLayer, topLayer]
        = mergeAll [] [baseLayer, middleLayer, topLayer] ∧
      mergeAll [] [baseLayer, mergeAll [] [middleLayer, topLayer]]
        = mergeAll [] [baseLayer, middleLayer, topLayer] := by
  have hbase : WellKeyed baseLayer := by decide
  have hmiddle : WellKeyed middleLayer := by decide
  have htop : WellKeyed topLayer := by decide
  have hwhole : ¬ Severed baseLayer middleLayer topLayer := by
    rw [severed_iff hmiddle]
    decide
  have hkeys : ∀ doc ∈ [baseLayer, middleLayer, topLayer], WellKeyed doc := by
    simp [hbase, hmiddle, htop]
  have hunsevered : Unsevered [baseLayer, middleLayer, topLayer] := by
    intro lower middle upper hsub
    cases hsub.eq_of_length rfl
    exact hwhole
  obtain ⟨hassoc, hneutral, htwice, hpart⟩ := merge_algebra
  exact ⟨⟨hbase, hmiddle, htop⟩, hwhole, hassoc _ _ _ hbase hmiddle htop hwhole,
    (hneutral _ hmiddle).2.2, htwice [baseLayer] middleLayer [topLayer] hkeys,
    hpart [baseLayer] [middleLayer, topLayer] [] hkeys hunsevered⟩

end LayeredConfig.Tree
