import LayeredConfig.Proofs.FirstFailure
import LayeredConfig.Proofs.Tree.MergedValues
import LayeredConfig.Tree.Filter

/-!
# Filtering merged documents

Ignored keys can be dropped from every document before the merge or from the merge itself. The main
key of a merge is the first key that the first document with any keys has left, and below it lies
what the documents hold under that key, merged in order.
-/

namespace LayeredConfig

namespace Entries

variable {α : Type} (keep : Text → Bool)

private theorem filter_alter (key : Text) (change : Option α → α) (entries : Entries α) :
    (alter key change entries).filter (fun entry ↦ keep entry.1)
      = if keep key then alter key change (entries.filter fun entry ↦ keep entry.1)
        else entries.filter fun entry ↦ keep entry.1 := by
  induction entries with
  | nil => by_cases hkeep : keep key <;> simp [alter, hkeep]
  | cons entry rest ih =>
    by_cases he : entry.1 = key
    · by_cases hkeep : keep key <;> simp [alter, he, hkeep]
    · by_cases hentry : keep entry.1
      · by_cases hkeep : keep key <;> simp_all [alter]
      · by_cases hkeep : keep key <;> simp_all [alter]

private theorem find?_filter {key : Text} (hkeep : keep key) (entries : Entries α) :
    find? key (entries.filter fun entry ↦ keep entry.1) = find? key entries := by
  induction entries with
  | nil => rfl
  | cons entry rest ih =>
    by_cases he : entry.1 = key
    · simp [find?, he, hkeep]
    · by_cases hentry : keep entry.1 <;> simp [find?, he, hentry, ih]

end Entries

namespace Tree

/-! ### Dropped keys -/

variable {ignored : List String}

/-- Whether a key is left when keys are ignored. -/
def isKept (ignored : List String) (key : Text) : Bool := !ignored.contains key.bare

private theorem dropKeys_eq_filter (ignored : List String) (tree : Tree) :
    dropKeys ignored tree = tree.filter fun entry ↦ isKept ignored entry.1 := rfl

private theorem dropKeys_merge (ignored : List String) (base overlay : Tree) :
    dropKeys ignored (merge base overlay)
      = merge (dropKeys ignored base) (dropKeys ignored overlay) := by
  induction overlay generalizing base with
  | nil =>
    rw [merge_nil]
    exact (merge_nil _).symm
  | cons entry rest ih =>
    rcases entry with ⟨key, value⟩
    rw [merge_cons, ih]
    simp only [dropKeys_eq_filter, Entries.filter_alter]
    by_cases hkept : isKept ignored key
    · rw [if_pos hkept, List.filter_cons, if_pos hkept, merge_cons]
    · rw [if_neg hkept, List.filter_cons, if_neg hkept]

/-- Keys can be dropped from every document before they are merged. -/
theorem dropKeys_mergeAll (ignored : List String) (base : Tree) (docs : List Tree) :
    dropKeys ignored (mergeAll base docs)
      = mergeAll (dropKeys ignored base) (docs.map (dropKeys ignored)) := by
  induction docs generalizing base with
  | nil => rfl
  | cons doc rest ih =>
    rw [mergeAll, List.foldl_cons, ← mergeAll, ih, dropKeys_merge]
    rfl

private theorem merge_eq_nil_iff (base overlay : Tree) :
    merge base overlay = [] ↔ base = [] ∧ overlay = [] := by
  induction overlay generalizing base with
  | nil => simp [merge_nil]
  | cons entry rest ih =>
    rw [merge_cons, ih]
    simp [Entries.alter_ne_nil]

/-- Documents give an empty tree when all of them are empty. -/
theorem mergeAll_eq_nil_iff (base : Tree) (docs : List Tree) :
    mergeAll base docs = [] ↔ base = [] ∧ ∀ doc ∈ docs, doc = [] := by
  induction docs generalizing base with
  | nil => simp [mergeAll]
  | cons doc rest ih =>
    rw [mergeAll, List.foldl_cons, ← mergeAll, ih, merge_eq_nil_iff, List.forall_mem_cons,
      and_assoc]

/-! ### The main key -/

private theorem exists_cons_merge (key : Text) (value : Value) (rest overlay : Tree) :
    ∃ value' rest', merge ((key, value) :: rest) overlay = (key, value') :: rest' := by
  induction overlay generalizing value rest with
  | nil => exact ⟨value, rest, merge_nil _⟩
  | cons entry more ih =>
    rw [merge_cons, Entries.alter]
    split
    · exact ih _ _
    · exact ih _ _

private theorem exists_cons_mergeAll (key : Text) (value : Value) (rest : Tree) (docs : List Tree) :
    ∃ value' rest', mergeAll ((key, value) :: rest) docs = (key, value') :: rest' := by
  induction docs generalizing value rest with
  | nil => exact ⟨value, rest, rfl⟩
  | cons doc docs ih =>
    obtain ⟨value', rest', hmerge⟩ := exists_cons_merge key value rest doc
    rw [mergeAll, List.foldl_cons, hmerge]
    exact ih value' rest'

private theorem exists_cons_of_firstWith {docs before : List Tree} {doc : Tree}
    (h : FirstWith (dropKeys ignored · ≠ []) docs before doc) (hdoc : Entries.Distinct doc)
    {key : Text} {value : Value} {rest : Tree}
    (hkey : dropKeys ignored doc = (key, value) :: rest) :
    ∃ value' rest', dropKeys ignored (mergeAll [] docs) = (key, value') :: rest' := by
  obtain ⟨after, rfl⟩ := h.split
  have hempty : mergeAll [] (before.map (dropKeys ignored)) = [] := by
    refine (mergeAll_eq_nil_iff [] _).mpr ⟨rfl, fun dropped hd ↦ ?_⟩
    obtain ⟨other, ho, rfl⟩ := List.mem_map.mp hd
    exact Classical.not_not.mp (h.earlier other ho)
  have hfirst : merge [] (dropKeys ignored doc) = (key, value) :: rest := by
    rw [← hkey]
    exact merge_empty (hdoc.sublist (List.filter_sublist.map Prod.fst))
  have hsplit : dropKeys ignored (mergeAll [] (before ++ doc :: after))
      = mergeAll (merge (mergeAll [] (before.map (dropKeys ignored))) (dropKeys ignored doc))
          (after.map (dropKeys ignored)) := by
    rw [dropKeys_mergeAll, List.map_append, mergeAll, List.foldl_append]
    rfl
  rw [hsplit, hempty, hfirst]
  exact exists_cons_mergeAll key value rest _

private theorem isKept_of_mem_dropKeys {tree : Tree} {entry : Text × Value}
    (h : entry ∈ dropKeys ignored tree) : isKept ignored entry.1 := (List.mem_filter.mp h).2

/-! ### What lies below the main key -/

private theorem find?_mergeAll (base : Tree) {docs : List Tree}
    (h : ∀ doc ∈ docs, Entries.Distinct doc)
    (key : Text) :
    Entries.find? key (mergeAll base docs)
      = (docs.map (Entries.find? key)).foldl layOver (Entries.find? key base) := by
  induction docs generalizing base with
  | nil => rfl
  | cons doc rest ih =>
    obtain ⟨hdoc, hrest⟩ := List.forall_mem_cons.mp h
    rw [mergeAll, List.foldl_cons, ← mergeAll, ih _ hrest, find?_merge base hdoc]
    rfl

private theorem foldl_layOver_some (base : Value) (slots : List (Option Value)) :
    slots.foldl layOver (some base) = some (Value.mergeAll base (slots.filterMap id)) := by
  induction slots generalizing base with
  | nil => rfl
  | cons slot rest ih =>
    cases slot with
    | none => exact ih base
    | some value => exact ih (mergeValue (some base) value)

private theorem mergeValue_none {value : Value}
    (h : ∀ below, value = .tree below → Entries.Distinct below) :
    mergeValue none value = Value.merge .empty value := by
  cases value with
  | scalar s => rw [Value.merge, mergeValue_scalar, mergeValue_scalar]
  | tree below =>
    rw [Value.merge, mergeValue_tree none (h below rfl), mergeValue_tree _ (h below rfl)]
    rfl

/-- What documents hold under a key, merged in order. -/
def heldUnder (key : Text) (docs : List Tree) : Value :=
  Value.mergeAll .empty (docs.filterMap (Entries.find? key))

/-- A key of merged documents holds what they hold under it, merged in order. -/
theorem eq_heldUnder {docs : List Tree} (h : ∀ doc ∈ docs, WellKeyed doc) {key : Text}
    {value : Value} (hvalue : Entries.find? key (mergeAll [] docs) = some value) :
    value = heldUnder key docs := by
  rw [find?_mergeAll [] (fun doc hd ↦ (h doc hd).1)] at hvalue
  -- documents without the key come first, and the first one with it starts the merge
  induction docs with
  | nil => cases hvalue
  | cons doc rest ih =>
    obtain ⟨hdoc, hrest⟩ := List.forall_mem_cons.mp h
    rw [List.map_cons, List.foldl_cons] at hvalue
    match hfind : Entries.find? key doc with
    | none =>
      rw [hfind] at hvalue
      rw [heldUnder, List.filterMap_cons_none hfind]
      exact ih hrest hvalue
    | some first =>
      have hkeys : ∀ below, first = .tree below → Entries.Distinct below := by
        rintro below rfl
        exact (hdoc.of_find? hfind).1
      have hstart : layOver (Entries.find? key []) (some first) = some (Value.merge .empty first) :=
        congrArg some (mergeValue_none hkeys)
      rw [hfind, hstart, foldl_layOver_some, List.filterMap_map, Option.some.injEq] at hvalue
      rw [heldUnder, List.filterMap_cons_some hfind, ← hvalue]
      rfl

/-! ### Filters -/

private theorem applyFilters_true (ignored : List String) (tree : Tree) :
    applyFilters ignored true tree
      = if dropKeys ignored tree = [] then .error .noKeysRemain
        else .ok (dropKeys ignored tree) := by
  rw [applyFilters]
  cases dropKeys ignored tree with
  | nil => rfl
  | cons entry rest =>
    rw [if_neg (List.cons_ne_nil entry rest)]
    rfl

private theorem applyFilters_false (ignored : List String) (tree : Tree) :
    applyFilters ignored false tree = belowMainKey (dropKeys ignored tree) := by
  rw [applyFilters]
  cases dropKeys ignored tree with
  | nil => rfl
  | cons entry rest => rfl

private theorem dropKeys_mergeAll_eq_nil_iff (ignored : List String) (docs : List Tree) :
    dropKeys ignored (mergeAll [] docs) = [] ↔ ∀ doc ∈ docs, dropKeys ignored doc = [] := by
  rw [dropKeys_mergeAll, mergeAll_eq_nil_iff]
  simp [dropKeys]

/-- **Filtering a merge is merging what is filtered.** Keys are dropped from merged documents as
from every document. With the main key, filtering fails exactly when no document has a key left.
Without it, the main key is the first key that the first such document has left, and the result is
what the documents hold under it, merged in order, unless that is no tree or an empty one. -/
theorem applyFilters_mergeAll (ignored : List String) {docs : List Tree}
    (h : ∀ doc ∈ docs, WellKeyed doc) :
    dropKeys ignored (mergeAll [] docs) = mergeAll [] (docs.map (dropKeys ignored)) ∧
      (∀ cause, applyFilters ignored true (mergeAll [] docs) = .error cause ↔
        cause = .noKeysRemain ∧ ∀ doc ∈ docs, dropKeys ignored doc = []) ∧
      (∀ tree, applyFilters ignored true (mergeAll [] docs) = .ok tree ↔
        tree = mergeAll [] (docs.map (dropKeys ignored)) ∧
          ∃ doc ∈ docs, dropKeys ignored doc ≠ []) ∧
      ((∀ doc ∈ docs, dropKeys ignored doc = []) →
        applyFilters ignored false (mergeAll [] docs) = .error .noKeysRemain) ∧
      ∀ before doc key value rest, FirstWith (dropKeys ignored · ≠ []) docs before doc →
        dropKeys ignored doc = (key, value) :: rest →
          (∀ below, heldUnder key docs = .tree below → below ≠ [] →
            applyFilters ignored false (mergeAll [] docs) = .ok below) ∧
          ((∀ below, heldUnder key docs = .tree below → below = []) →
            applyFilters ignored false (mergeAll [] docs) = .error (.nothingNested key.bare)) := by
  have hdropped : dropKeys ignored (mergeAll [] docs) = mergeAll [] (docs.map (dropKeys ignored)) :=
    dropKeys_mergeAll ignored [] docs
  have hnone := dropKeys_mergeAll_eq_nil_iff ignored docs
  refine ⟨hdropped, ?_, ?_, ?_, ?_⟩
  · intro cause
    rw [applyFilters_true, ← hnone]
    split
    · next hnil => simp [hnil, eq_comm]
    · next hleft => simp [hleft]
  · intro tree
    have hsome : (∃ doc ∈ docs, dropKeys ignored doc ≠ []) ↔
        dropKeys ignored (mergeAll [] docs) ≠ [] := by
      rw [Ne, hnone]
      simp
    rw [applyFilters_true, hsome, ← hdropped]
    split
    · next hnil => simp [hnil]
    · next hleft => simp [hleft, eq_comm]
  · intro hall
    rw [applyFilters_false, hnone.mpr hall]
    rfl
  · intro before doc key value rest hfirst hkey
    have hdoc : doc ∈ docs := by
      obtain ⟨after, rfl⟩ := hfirst.split
      exact List.mem_append_right _ List.mem_cons_self
    obtain ⟨value', rest', hcons⟩ := exists_cons_of_firstWith hfirst (h doc hdoc).1 hkey
    have hleft : (key, value) ∈ dropKeys ignored doc := hkey ▸ List.mem_cons_self
    have hkept : isKept ignored key := isKept_of_mem_dropKeys hleft
    have hvalue : value' = heldUnder key docs := by
      refine eq_heldUnder h ?_
      rw [← Entries.find?_filter (isKept ignored) hkept, ← dropKeys_eq_filter, hcons]
      simp [Entries.find?]
    rw [applyFilters_false, hcons, ← hvalue]
    constructor
    · rintro below rfl hbelow
      cases below with
      | nil => exact absurd rfl hbelow
      | cons entry more => rfl
    · intro hempty
      cases value' with
      | scalar s => rfl
      | tree below =>
        rw [hempty below rfl]
        rfl

/-- Documents of which the first has only ignored keys, with both marks. In the others a leaf
replaces what lies below the main key, and a branch replaces the leaf. -/
def rewrittenMainKey : List Tree :=
  [[(.quoted "env", .scalar .null), (.literal "env", .tree [(.quoted "a", .scalar .null)])],
    [(.quoted "app", .tree [(.quoted "host", .scalar (.integer 1))]),
      (.quoted "log", .scalar (.bool true))],
    [(.literal "app", .tree []), (.quoted "app", .scalar (.integer 5))],
    [(.quoted "env", .scalar .null), (.quoted "app", .tree [(.quoted "port", .scalar .null)])]]

/-- The second document gives the main key, and what the last one holds under it is left. When that
key is ignored instead, the main key is one of the first document and holds a leaf. -/
theorem applyFilters_mergeAll_rewrittenMainKey :
    (∀ doc ∈ rewrittenMainKey, WellKeyed doc) ∧
      applyFilters ["env"] false (mergeAll [] rewrittenMainKey)
        = .ok [(.quoted "port", .scalar .null)] ∧
      applyFilters ["app"] false (mergeAll [] rewrittenMainKey)
        = .error (.nothingNested "env") ∧
      applyFilters ["app", "env", "log"] true (mergeAll [] rewrittenMainKey)
        = .error .noKeysRemain := by
  have hkeys : ∀ doc ∈ rewrittenMainKey, WellKeyed doc := by decide
  obtain ⟨-, -, -, -, hmain⟩ := applyFilters_mergeAll ["env"] hkeys
  obtain ⟨-, -, -, -, hleaf⟩ := applyFilters_mergeAll ["app"] hkeys
  obtain ⟨-, hnone, -⟩ := applyFilters_mergeAll ["app", "env", "log"] hkeys
  have hsecond : FirstWith (dropKeys ["env"] · ≠ []) rewrittenMainKey _ _ :=
    .cons (by decide) (.head (by decide))
  have hfirst : FirstWith (dropKeys ["app"] · ≠ []) rewrittenMainKey _ _ := .head (by decide)
  refine ⟨hkeys, (hmain _ _ _ _ _ hsecond rfl).1 _ rfl (by decide), ?_,
    (hnone _).mpr ⟨rfl, by decide⟩⟩
  refine (hleaf _ _ _ _ _ hfirst rfl).2 fun below hbelow ↦ ?_
  exact absurd hbelow nofun

end Tree

end LayeredConfig
