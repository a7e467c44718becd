import LayeredConfig.Proofs.Tree.Lookup
import LayeredConfig.Proofs.Tree.Unflattening

/-!
# Conflicting flat keys

Two flat keys conflict when one addresses a place below the other. Unflattening resolves every
conflict in favour of the later entry: flattening the result again gives the entries that conflict
with no later one, and nothing else.
-/

namespace LayeredConfig.Tree

/-- Whether two flat keys have the same mark and the segments of one are a proper prefix of those
of the other. -/
def Conflict (key other : Text) : Prop :=
  key.isLiteral = other.isLiteral ∧ splitPath key.bare ≠ splitPath other.bare ∧
    (splitPath key.bare <+: splitPath other.bare ∨ splitPath other.bare <+: splitPath key.bare)

instance (key other : Text) : Decidable (Conflict key other) :=
  inferInstanceAs (Decidable (_ ∧ _ ∧ _))

/-- The entries of a flat tree that conflict with no later entry, in order. -/
def survivors : Tree → Tree
  | [] => []
  | entry :: rest =>
    if ∃ later ∈ rest, Conflict entry.1 later.1 then survivors rest else entry :: survivors rest

/-- The surviving entries are some of the entries, in order. -/
theorem survivors_sublist (flat : Tree) : List.Sublist (survivors flat) flat := by
  induction flat with
  | nil => exact List.Sublist.refl _
  | cons entry rest ih =>
    rw [survivors]
    split
    · exact ih.cons entry
    · exact ih.cons_cons entry

private theorem survivors_of_forall_not {flat : Tree}
    (h : ∀ entry ∈ flat, ∀ other ∈ flat, ¬ Conflict entry.1 other.1) : survivors flat = flat := by
  induction flat with
  | nil => rfl
  | cons entry rest ih =>
    have hfirst : ¬ ∃ later ∈ rest, Conflict entry.1 later.1 := by
      rintro ⟨later, hl, hc⟩
      exact h entry List.mem_cons_self later (List.mem_cons_of_mem _ hl) hc
    rw [survivors, if_neg hfirst, ih]
    intro a ha b hb
    exact h a (List.mem_cons_of_mem _ ha) b (List.mem_cons_of_mem _ hb)

private theorem apart_pathOf_iff {key other : Text} (hne : key ≠ other) :
    Apart (pathOf key) (pathOf other) ↔ ¬ Conflict key other := by
  rw [Apart, pathOf_prefix_iff, pathOf_prefix_iff, Conflict]
  have hsplit : key.isLiteral = other.isLiteral → splitPath key.bare ≠ splitPath other.bare := by
    intro hmark heq
    apply hne
    apply pathOf_injective
    simp only [pathOf, heq, hmark]
  constructor
  · rintro ⟨hfirst, hsecond⟩ ⟨hmark, -, hprefix | hprefix⟩
    · exact hfirst ⟨hmark, hprefix⟩
    · exact hsecond ⟨hmark.symm, hprefix⟩
  · intro h
    constructor
    · rintro ⟨hmark, hprefix⟩
      exact h ⟨hmark, hsplit hmark, Or.inl hprefix⟩
    · rintro ⟨hmark, hprefix⟩
      exact h ⟨hmark.symm, hsplit hmark.symm, Or.inr hprefix⟩

private theorem prefix_or_prefix_of_not_apart {path other : List Text} (h : ¬ Apart path other) :
    path <+: other ∨ other <+: path := by
  by_cases hp : path <+: other
  · exact Or.inl hp
  · exact Or.inr (Decidable.byContradiction fun ho ↦ h ⟨hp, ho⟩)

private theorem get_put_ne_scalar {path other : List Text} (s s' : Scalar) (old : Option Value)
    (h : ¬ Apart path other) (hne : other ≠ path) :
    get other (some (put (.scalar s) path old)) ≠ some (.scalar s') := by
  rcases prefix_or_prefix_of_not_apart h with ⟨more, rfl⟩ | ⟨more, rfl⟩
  · cases more with
    | nil => simp at hne
    | cons key more =>
      rw [get_append, get_put_self, get_cons_scalar]
      exact (Option.some_ne_none _).symm
  · cases more with
    | nil => simp at hne
    | cons key more =>
      rw [get_put_append, put]
      simp

private theorem get_place_eq_scalar_iff {path other : List Text} (s s' : Scalar) (tree : Tree)
    (hpath : path ≠ []) :
    get other (some (.tree (place (.scalar s) path tree))) = some (.scalar s') ↔
      (other = path ∧ s = s') ∨
        (Apart path other ∧ get other (some (.tree tree)) = some (.scalar s')) := by
  rw [← put_tree _ _ hpath]
  by_cases happart : Apart path other
  · have hne : other ≠ path := by
      rintro rfl
      exact happart.1 List.prefix_rfl
    rw [get_put_of_apart _ _ happart]
    simp [happart, hne]
  · by_cases heq : other = path
    · subst heq
      rw [get_put_self]
      simp [happart]
    · simp [happart, heq, get_put_ne_scalar s s' _ happart heq]

private theorem not_exists_conflict_iff {key : Text} {rest : Tree} (h : key ∉ Entries.keys rest) :
    (¬ ∃ later ∈ rest, Conflict key later.1)
      ↔ ∀ later ∈ rest, Apart (pathOf later.1) (pathOf key) := by
  have hlater : ∀ later ∈ rest,
      (¬ Conflict key later.1 ↔ Apart (pathOf later.1) (pathOf key)) := by
    intro later hl
    have hne : key ≠ later.1 := by
      rintro rfl
      exact h (List.mem_map_of_mem hl)
    rw [← apart_pathOf_iff hne]
    exact ⟨Apart.symm, Apart.symm⟩
  constructor
  · intro hnone later hl
    exact (hlater later hl).mp fun hc ↦ hnone ⟨later, hl, hc⟩
  · rintro hall ⟨later, hl, hc⟩
    exact (hlater later hl).mpr (hall later hl) hc

private theorem exists_mem_survivors_cons {entry : Text × Value} {rest : Tree}
    (h : entry.1 ∉ Entries.keys rest) (Q : Text × Value → Prop) :
    (∃ e ∈ survivors (entry :: rest), Q e) ↔
      (∃ e ∈ survivors rest, Q e) ∨
        ((∀ later ∈ rest, Apart (pathOf later.1) (pathOf entry.1)) ∧ Q entry) := by
  rw [← not_exists_conflict_iff h, survivors]
  split
  · next hc => simp [hc]
  · next hc => simp [hc, or_comm]

private theorem get_placeAll_eq_scalar_iff {flat : Tree} (hd : Entries.Distinct flat)
    (hleaves : ∀ entry ∈ flat, ∃ s, entry.2 = .scalar s) (tree : Tree) (path : List Text)
    (s : Scalar) :
    get path (some (.tree (placeAll (flat.map spelledTip) tree))) = some (.scalar s) ↔
      (∃ entry ∈ survivors flat, pathOf entry.1 = path ∧ entry.2 = .scalar s) ∨
        ((∀ entry ∈ flat, Apart (pathOf entry.1) path) ∧
          get path (some (.tree tree)) = some (.scalar s)) := by
  induction flat generalizing tree with
  | nil => simp [survivors]
  | cons entry rest ih =>
    obtain ⟨hnew, hrest⟩ := List.nodup_cons.mp hd
    obtain ⟨⟨s₀, hs⟩, hleaves'⟩ := List.forall_mem_cons.mp hleaves
    rw [List.map_cons, placeAll_cons, ih hrest hleaves', exists_mem_survivors_cons hnew,
      List.forall_mem_cons]
    simp only [spelledTip, hs, get_place_eq_scalar_iff s₀ s tree (pathOf_ne_nil entry.1),
      Value.scalar.injEq]
    constructor
    · rintro (hr | ⟨hr, ⟨rfl, rfl⟩ | ⟨happart, hget⟩⟩)
      · exact Or.inl (Or.inl hr)
      · exact Or.inl (Or.inr ⟨hr, rfl, rfl⟩)
      · exact Or.inr ⟨⟨happart, hr⟩, hget⟩
    · rintro ((hr | ⟨hr, rfl, rfl⟩) | ⟨⟨happart, hr⟩, hget⟩)
      · exact Or.inl hr
      · exact Or.inr ⟨hr, Or.inl ⟨rfl, rfl⟩⟩
      · exact Or.inr ⟨hr, Or.inr ⟨happart, hget⟩⟩

private theorem get_unflatten_eq_scalar_iff {flat : Tree} (h : Flat flat) (path : List Text)
    (s : Scalar) :
    get path (some (.tree (unflatten flat))) = some (.scalar s) ↔
      ∃ entry ∈ survivors flat, pathOf entry.1 = path ∧ entry.2 = .scalar s := by
  have hnone : get path (some (.tree [])) ≠ some (.scalar s) := by
    cases path with
    | nil => exact nofun
    | cons key path =>
      rw [get_cons_empty]
      exact nofun
  rw [unflatten_eq_placeAll, get_placeAll_eq_scalar_iff h.distinct fun _ ↦ h.exists_scalar]
  simp [hnone]

private theorem mem_flatten_unflatten_iff {flat : Tree} (h : Flat flat) (entry : Text × Value) :
    entry ∈ flatten (unflatten flat) ↔ entry ∈ survivors flat := by
  have hclean := clean_unflatten h
  have hmem : ∀ e ∈ survivors flat, e ∈ flat := fun e he ↦
    (survivors_sublist flat).subset he
  constructor
  · intro he
    obtain ⟨tip, ht, rfl⟩ := exists_tip_of_mem_flatten hclean he
    obtain ⟨s, hs⟩ := exists_scalar_of_mem_tips hclean.full ht
    have hget := get_of_mem_tips hclean.wellKeyed ht
    rw [hs] at hget
    obtain ⟨e, hes, hpath, hvalue⟩ := (get_unflatten_eq_scalar_iff h _ _).mp hget
    have hkey := flatKey_pathOf (h.undotted e (hmem e hes))
    rw [flatEntry, hs, ← hpath, hkey, ← hvalue]
    exact hes
  · intro he
    obtain ⟨s, hs⟩ := h.exists_scalar (hmem entry he)
    have hget := (get_unflatten_eq_scalar_iff h (pathOf entry.1) s).mpr ⟨entry, he, rfl, hs⟩
    have hkey := flatKey_pathOf (h.undotted entry (hmem entry he))
    rw [flatten_eq_map_tips hclean]
    refine List.mem_map.mpr ⟨_, mem_tips_of_get hget, ?_⟩
    rw [flatEntry, hkey, ← hs]

/-- Unflattening resolves every conflict in favour of the later entry and keeps all other entries:
the flat form of the result lists, in some order, the entries that conflict with no later one. -/
theorem flatten_unflatten_perm (flat : Tree) (h : Flat flat) :
    List.Perm (flatten (unflatten flat)) (survivors flat) ∧
      leafCount (unflatten flat) = (survivors flat).length ∧
      ((∀ entry ∈ flat, ∀ other ∈ flat, ¬ Conflict entry.1 other.1) →
        List.Perm (flatten (unflatten flat)) flat) := by
  have hclean := clean_unflatten h
  have hperm : List.Perm (flatten (unflatten flat)) (survivors flat) := by
    apply (List.perm_ext_iff_of_nodup (distinct_flatten hclean).nodup _).mpr
    · exact mem_flatten_unflatten_iff h
    · exact (survivors_sublist flat).nodup h.distinct.nodup
  refine ⟨hperm, ?_, ?_⟩
  · rw [← hperm.length_eq, flatten_eq_map_tips hclean, List.length_map, length_tips hclean.full]
  · intro hnone
    rw [survivors_of_forall_not hnone] at hperm
    exact hperm

/-- A flat tree in which leaves are stored below leaves and over branches. -/
def crossedKeys : Tree :=
  [(.quoted "a", .scalar (.integer 1)), (.quoted "x.y", .scalar (.integer 2)),
    (.quoted "a.b.c", .scalar (.integer 3)), (.literal "a", .scalar (.integer 4)),
    (.quoted "a.b", .scalar (.integer 5)), (.quoted "x", .scalar .null),
    (.quoted "a.", .scalar (.bool true)), (.quoted "", .scalar (.bool false))]

/-- A flat tree without conflicts, in which the keys of one branch are not next to each other. -/
def spreadKeys : Tree :=
  [(.quoted "a.b", .scalar (.integer 1)), (.quoted "c", .scalar (.integer 2)),
    (.quoted "a.d", .scalar (.integer 3))]

/-- A leaf gives way to a branch and a branch to a leaf, and literal keys keep apart; where nothing
conflicts, entries are only regrouped. -/
theorem flatten_unflatten_perm_crossedKeys :
    Flat crossedKeys ∧ List.Perm (flatten (unflatten crossedKeys)) (survivors crossedKeys) ∧
      Entries.keys (survivors crossedKeys)
        = [.literal "a", .quoted "a.b", .quoted "x", .quoted "a.", .quoted ""] ∧
      List.Perm (flatten (unflatten spreadKeys)) spreadKeys ∧
      flatten (unflatten spreadKeys) ≠ spreadKeys := by
  have h : Flat crossedKeys := by constructor <;> decide
  have hspread : Flat spreadKeys := by constructor <;> decide
  exact ⟨h, (flatten_unflatten_perm crossedKeys h).1, by decide,
    (flatten_unflatten_perm spreadKeys hspread).2.2 (by decide), by decide⟩

end LayeredConfig.Tree
