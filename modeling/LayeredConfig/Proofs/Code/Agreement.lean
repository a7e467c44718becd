import LayeredConfig.Proofs.Code.Unsupported
import LayeredConfig.Proofs.FirstFailure
import LayeredConfig.Proofs.Tree.Flattening

/-!
# What the generators agree on

Both kinds of code assign the leaves of a tree in depth-first order, each to a target that its path
gives, and both fail at the first leaf that is a number and not finite. Structured code assigns the
empty branches besides. Flat code goes by flat keys, so it has all the leaves only where no two of
them have the same flat key.
-/

namespace LayeredConfig.Code

open LayeredConfig.Tree (Tip tips leaves flatKey flatEntry)

/-- A tip is a number that is not finite. -/
def NonFinite (tip : Tip) : Prop := ∃ x, tip.2 = .scalar (.float x) ∧ x.isFinite = false

/-! ### Assigning tips -/

/-- A tip other than a number that is not finite is assigned. -/
theorem assign_of_finite (target : List Text → String) {tip : Tip} (h : ¬ NonFinite tip) :
    assign target tip = .ok ⟨target tip.1, plainCode tip.2⟩ := by
  rw [assign, valueCode_of_isFinite]
  · rfl
  · intro x hx
    rw [← Bool.not_eq_false]
    exact fun hn ↦ h ⟨x, hx, hn⟩

private theorem assign_of_nonFinite (target : List Text → String) (path : List Text) {x : Binary64}
    (h : x.isFinite = false) :
    assign target (path, .scalar (.float x)) = .error (.nonFinite (target path) x) := by
  simp [assign, valueCode, ofScalar, h, Except.map]

private theorem mapM_assign_of_finite (target : List Text → String) {list : List Tip}
    (h : ∀ tip ∈ list, ¬ NonFinite tip) :
    list.mapM (assign target) = .ok (list.map fun tip ↦ ⟨target tip.1, plainCode tip.2⟩) :=
  mapM_eq_ok fun tip ht ↦ assign_of_finite target (h tip ht)

private theorem mapM_assign_of_first (target : List Text → String) {list before : List Tip}
    {path : List Text} {x : Binary64}
    (h : FirstWith NonFinite list before (path, .scalar (.float x))) :
    list.mapM (assign target) = .error (.nonFinite (target path) x) := by
  obtain ⟨y, hy, hfinite⟩ := h.holds
  cases hy
  exact h.mapM_eq_error (fun tip ht ↦ ⟨_, assign_of_finite target ht⟩)
    (assign_of_nonFinite target path hfinite)

/-! ### Flat code -/

private theorem flatAssignment_flatEntry (segment : Segment) (tip : Tip) :
    flatAssignment segment (flatEntry tip).1 (flatEntry tip).2
      = assign (fun path ↦ flatTarget segment (flatKey path)) tip := by
  rcases tip with ⟨path, s | entries⟩
  · rfl
  · rfl

private theorem flat_eq_mapM (segment : Segment) {tree : Tree}
    (h : ((leaves tree).map fun leaf ↦ flatKey leaf.1).Nodup) :
    flat segment tree
      = ((leaves tree).mapM (assign fun path ↦ flatTarget segment (flatKey path))).map
          renderLines := by
  have hdistinct : Entries.Distinct ((leaves tree).map flatEntry) := by
    rw [Entries.Distinct, Entries.keys, List.map_map]
    exact h
  rw [flat, Tree.flatten_eq_ofList, Entries.ofList_of_distinct hdistinct, flatAssignments_eq_mapM,
    List.mapM_map]
  exact congrArg (fun step ↦ Except.map renderLines ((leaves tree).mapM step))
    (funext (flatAssignment_flatEntry segment))

/-! ### Both kinds of code -/

private theorem isLeaf_of_nonFinite (tip : Tip) (h : NonFinite tip) : (!tip.2.isTree) = true := by
  obtain ⟨x, hx, -⟩ := h
  rw [hx]
  rfl

/-- **Both generators carry the same leaves**, where these have flat keys of their own. Either both
refuse the first leaf that is a number and not finite, each with its target for that leaf, or both
assign the same code in the same order: the flat one to the leaves, and the structured one to the
tips, which without the empty branches are the leaves. -/
theorem generators_agree {tree : Tree}
    (hdistinct : ((leaves tree).map fun leaf ↦ flatKey leaf.1).Nodup) (segment : Segment)
    (container : String) :
    (∃ before path x, FirstWith NonFinite (leaves tree) before (path, .scalar (.float x)) ∧
      (Generator.flat segment).generate tree
        = .error (.nonFinite (flatTarget segment (flatKey path)) x) ∧
      (Generator.structured container).generate tree
        = .error (.nonFinite (accessTarget container path) x)) ∨
    ((∀ leaf ∈ leaves tree, ¬ NonFinite leaf) ∧
      (Generator.flat segment).generate tree
        = .ok (renderLines ((leaves tree).map fun leaf ↦
            ⟨flatTarget segment (flatKey leaf.1), plainCode leaf.2⟩)) ∧
      (Generator.structured container).generate tree
        = .ok (renderLines ((tips tree).map fun tip ↦
            ⟨accessTarget container tip.1, plainCode tip.2⟩)) ∧
      ((tips tree).filter fun tip ↦ tip.2 ≠ .tree []) = leaves tree ∧
      plainCode (.tree []) = emptyArray) := by
  have hflat := flat_eq_mapM segment hdistinct
  have hstructured : structured container tree
      = ((tips tree).mapM (assign (accessTarget container))).map renderLines :=
    structured_eq_tipsCode container tree
  rcases FirstWith.exists_or_forall_not NonFinite (leaves tree) with
    ⟨before, ⟨path, value⟩, hfirst⟩ | hfinite
  · left
    obtain ⟨x, hx, -⟩ := hfirst.holds
    cases hx
    obtain ⟨between, htip⟩ := hfirst.of_filter isLeaf_of_nonFinite
    refine ⟨before, path, x, hfirst, ?_, ?_⟩
    · rw [Generator.generate, hflat, mapM_assign_of_first _ hfirst]
      rfl
    · rw [Generator.generate, hstructured, mapM_assign_of_first _ htip]
      rfl
  · right
    have htips : ∀ tip ∈ tips tree, ¬ NonFinite tip := by
      intro tip ht hn
      exact hfinite tip (List.mem_filter.mpr ⟨ht, isLeaf_of_nonFinite tip hn⟩) hn
    refine ⟨hfinite, ?_, ?_, Tree.filter_tips tree, rfl⟩
    · rw [Generator.generate, hflat, mapM_assign_of_finite _ hfinite]
      rfl
    · rw [Generator.generate, hstructured, mapM_assign_of_finite _ htips]
      rfl

/-- A tree with both marks, an empty branch, and a leaf that is given. -/
def mixedMarks (last : Scalar) : Tree :=
  [(.quoted "a", .tree
      [(.literal "B", .scalar (.text (.literal "PHP_EOL"))), (.quoted "none", .tree []),
        (.quoted "c", .tree [(.quoted "d", .scalar last)])]),
    (.literal "a", .scalar (.text (.quoted "it's")))]

/-- Its leaves are assigned by both generators, or its number is refused by both. -/
theorem generators_agree_mixedMarks :
    (Generator.flat ⟨"$cfg", "cfg"⟩).generate (mixedMarks (.bool true))
        = .ok (renderLines [⟨"$cfg['a.B']", "PHP_EOL"⟩, ⟨"$cfg['a.c.d']", "true"⟩,
            ⟨"$cfg[a]", "'it\\'s'"⟩]) ∧
      (Generator.structured "$config").generate (mixedMarks (.bool true))
        = .ok (renderLines [⟨"$config[\"a\"][B]", "PHP_EOL"⟩,
            ⟨"$config[\"a\"][\"none\"]", "array()"⟩,
            ⟨"$config[\"a\"][\"c\"][\"d\"]", "true"⟩, ⟨"$config[a]", "'it\\'s'"⟩]) ∧
      ∃ path x, (path, .scalar (.float x)) ∈ leaves (mixedMarks (.float .nan)) ∧
        (Generator.flat ⟨"$cfg", "cfg"⟩).generate (mixedMarks (.float .nan))
          = .error (.nonFinite (flatTarget ⟨"$cfg", "cfg"⟩ (flatKey path)) x) ∧
        (Generator.structured "$config").generate (mixedMarks (.float .nan))
          = .error (.nonFinite (accessTarget "$config" path) x) := by
  have hdistinct (last : Scalar) :
      ((leaves (mixedMarks last)).map fun leaf ↦ flatKey leaf.1).Nodup := by
    show [Text.quoted "a.B", .quoted "a.c.d", .literal "a"].Nodup
    decide
  have hassigned := generators_agree (hdistinct (.bool true)) ⟨"$cfg", "cfg"⟩ "$config"
  have hrefused := generators_agree (hdistinct (.float .nan)) ⟨"$cfg", "cfg"⟩ "$config"
  obtain ⟨-, hflat, hstructured, -⟩ := hassigned.resolve_left (by
    rintro ⟨before, path, x, -, herror, -⟩
    cases herror)
  obtain ⟨before, path, x, hfirst, hflat', hstructured'⟩ := hrefused.resolve_right (by
    rintro ⟨hfinite, -⟩
    have hnumber : ([.quoted "a", .quoted "c", .quoted "d"], .scalar (.float .nan))
        ∈ leaves (mixedMarks (.float .nan)) := by decide
    exact hfinite _ hnumber ⟨.nan, rfl, by decide⟩)
  obtain ⟨after, hsplit⟩ := hfirst.split
  refine ⟨hflat.trans (congrArg (Except.ok ∘ renderLines) (by decide)),
    hstructured.trans (congrArg (Except.ok ∘ renderLines) (by decide)), path, x, ?_, hflat',
    hstructured'⟩
  rw [hsplit]
  simp

end LayeredConfig.Code
