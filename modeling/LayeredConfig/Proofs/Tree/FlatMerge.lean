import LayeredConfig.Proofs.Tree.Flattening
import LayeredConfig.Proofs.Tree.Lookup

/-!
# Merging flat trees

Merging flat trees overwrites keys in place and appends new ones. Unflattening does not see the
difference between overwriting a key in place and storing it last, as long as no other key
addresses a place above or below it. So merging the flat forms of two clean trees and unflattening
the result is merging the trees.
-/

namespace LayeredConfig.Tree

private theorem merge_of_scalars (base : Tree) {overlay : Tree}
    (h : ∀ entry ∈ overlay, ∃ s, entry.2 = .scalar s) :
    merge base overlay
      = overlay.foldl (fun flat entry ↦ Entries.insert entry.1 entry.2 flat) base := by
  induction overlay generalizing base with
  | nil => rw [merge_nil, List.foldl_nil]
  | cons entry rest ih =>
    rcases entry with ⟨key, value⟩
    obtain ⟨⟨s, hs⟩, hrest⟩ := List.forall_mem_cons.mp h
    dsimp only at hs
    subst hs
    rw [merge_cons, ih _ hrest, List.foldl_cons]
    simp only [mergeValue_scalar]
    rfl

private theorem placeAll_place (value : Value) (path : List Text) {list : List Tip} {tree : Tree}
    (h : ∀ tip ∈ list, Apart path tip.1) (hold : Occupied path tree) :
    placeAll list (place value path tree) = place value path (placeAll list tree) := by
  induction list generalizing tree with
  | nil => rfl
  | cons tip rest ih =>
    obtain ⟨htip, hrest⟩ := List.forall_mem_cons.mp h
    rw [placeAll_cons, placeAll_cons, ← place_comm value tip.2 htip hold]
    exact ih hrest (occupied_place_of_apart tip.2 htip.symm hold)

/-- Whether the paths of all other keys of a flat tree are apart from the path of a key. -/
def Clear (key : Text) (flat : Tree) : Prop :=
  ∀ other ∈ Entries.keys flat, other ≠ key → Apart (pathOf key) (pathOf other)

private theorem placeAll_insert_of_mem {key : Text} (value : Value) {flat : Tree} (tree : Tree)
    (hflat : Entries.Distinct flat) (hmem : key ∈ Entries.keys flat) (hclear : Clear key flat) :
    placeAll ((Entries.insert key value flat).map spelledTip) tree
      = place value (pathOf key) (placeAll (flat.map spelledTip) tree) := by
  induction flat generalizing tree with
  | nil => exact absurd hmem List.not_mem_nil
  | cons entry rest ih =>
    rcases entry with ⟨k, old⟩
    obtain ⟨hnew, hrest⟩ := List.nodup_cons.mp hflat
    obtain ⟨-, hclear'⟩ := List.forall_mem_cons.mp hclear
    by_cases hk : k = key
    · subst hk
      have hinsert : Entries.insert k value ((k, old) :: rest) = (k, value) :: rest := by
        simp [Entries.insert, Entries.alter]
      have happart : ∀ tip ∈ rest.map spelledTip, Apart (pathOf k) tip.1 := by
        intro tip ht
        obtain ⟨entry, he, rfl⟩ := List.mem_map.mp ht
        have hkeys : entry.1 ∈ Entries.keys rest := List.mem_map_of_mem he
        apply hclear' entry.1 hkeys
        rintro rfl
        exact hnew hkeys
      have hold := occupied_place_self old tree (pathOf_ne_nil k)
      rw [hinsert, List.map_cons, List.map_cons, placeAll_cons, placeAll_cons]
      calc
        placeAll (rest.map spelledTip) (place value (pathOf k) tree)
            = placeAll (rest.map spelledTip)
                (place value (pathOf k) (place old (pathOf k) tree)) := by
          rw [place_place_self]
        _ = place value (pathOf k) (placeAll (rest.map spelledTip) (place old (pathOf k) tree)) :=
          placeAll_place value (pathOf k) happart hold
    · have hmem' : key ∈ Entries.keys rest := (List.mem_cons.mp hmem).resolve_left (Ne.symm hk)
      have hinsert : Entries.insert key value ((k, old) :: rest)
          = (k, old) :: Entries.insert key value rest := by
        simp [Entries.insert, Entries.alter, hk]
      rw [hinsert, List.map_cons, List.map_cons, placeAll_cons, placeAll_cons,
        ih _ hrest hmem' hclear']

private theorem unflatten_insert {key : Text} (value : Value) {flat : Tree}
    (hflat : Entries.Distinct flat) (hclear : key ∈ Entries.keys flat → Clear key flat) :
    unflatten (Entries.insert key value flat)
      = place value (pathOf key) (unflatten flat) := by
  rw [unflatten_eq_placeAll, unflatten_eq_placeAll]
  by_cases hmem : key ∈ Entries.keys flat
  · exact placeAll_insert_of_mem value [] hflat hmem (hclear hmem)
  · rw [Entries.insert_of_not_mem key value hmem, List.map_append, placeAll_append]
    rfl

private theorem unflatten_foldl_insert {overlay flat : Tree} (hflat : Entries.Distinct flat)
    (hover : Entries.Distinct overlay)
    (hclear : ∀ key ∈ Entries.keys overlay, key ∈ Entries.keys flat → Clear key flat)
    (hself : ∀ key ∈ Entries.keys overlay, Clear key overlay) :
    unflatten (overlay.foldl (fun flat entry ↦ Entries.insert entry.1 entry.2 flat) flat)
      = placeAll (overlay.map spelledTip) (unflatten flat) := by
  induction overlay generalizing flat with
  | nil => rfl
  | cons entry rest ih =>
    rcases entry with ⟨k, value⟩
    obtain ⟨hnew, hrest⟩ := List.nodup_cons.mp hover
    obtain ⟨hk, hclear'⟩ := List.forall_mem_cons.mp hclear
    have hself' : ∀ key ∈ Entries.keys rest, Clear key rest := by
      intro key hkey other ho
      exact hself key (List.mem_cons_of_mem _ hkey) other (List.mem_cons_of_mem _ ho)
    have hstep : ∀ key ∈ Entries.keys rest, key ∈ Entries.keys (Entries.insert k value flat) →
        Clear key (Entries.insert k value flat) := by
      intro key hkey hmem other ho hne
      have hold : key ∈ Entries.keys flat := by
        refine ((Entries.mem_keys_alter _ _ _ _).mp hmem).resolve_right ?_
        rintro rfl
        exact hnew hkey
      rcases (Entries.mem_keys_alter _ _ _ _).mp ho with ho | rfl
      · exact hclear' key hkey hold other ho hne
      · exact hself key (List.mem_cons_of_mem _ hkey) other List.mem_cons_self hne
    have hinsert : Entries.Distinct (Entries.insert k value flat) :=
      Entries.distinct_alter _ _ hflat
    rw [List.foldl_cons, ih hinsert hrest hstep hself', unflatten_insert value hflat hk]
    rfl

private theorem clear_of_mem_flatten {tree : Tree} (h : Clean tree) {key : Text}
    (hkey : key ∈ Entries.keys (flatten tree)) : Clear key (flatten tree) := by
  intro other ho hne
  obtain ⟨entry, he, rfl⟩ := List.mem_map.mp hkey
  obtain ⟨entry', he', rfl⟩ := List.mem_map.mp ho
  obtain ⟨tip, ht, rfl⟩ := exists_tip_of_mem_flatten h he
  obtain ⟨tip', ht', rfl⟩ := exists_tip_of_mem_flatten h he'
  simp only [flatEntry] at hne ⊢
  rw [pathOf_flatKey (h.addressable ht), pathOf_flatKey (h.addressable ht')]
  apply apart_of_mem_tips h.wellKeyed ht ht'
  intro heq
  exact hne (congrArg flatKey heq.symm)

/-- Merging the flat forms of two clean trees and unflattening the result is merging the trees. -/
theorem unflatten_merge_flatten (a b : Tree) (ha : Clean a) (hb : Clean b) :
    unflatten (merge (flatten a) (flatten b)) = merge a b := by
  have hscalars : ∀ entry ∈ flatten b, ∃ s, entry.2 = .scalar s := by
    intro entry he
    obtain ⟨tip, ht, rfl⟩ := exists_tip_of_mem_flatten hb he
    exact exists_scalar_of_mem_tips hb.full ht
  have hplace := unflatten_foldl_insert (distinct_flatten ha) (distinct_flatten hb)
    (fun _ _ ↦ clear_of_mem_flatten ha) (fun _ ↦ clear_of_mem_flatten hb)
  rw [merge_of_scalars _ hscalars, hplace, unflatten_eq_placeAll, map_spelledTip_flatten ha,
    map_spelledTip_flatten hb, placeAll_tips_nil ha, placeAll_tips a hb.wellKeyed hb.full]

/-- A clean tree in which a branch and a leaf stand for the keys that another one lays over them. -/
def lowerLayer : Tree :=
  [(.quoted "db", .tree
      [(.quoted "host", .scalar (.bool true)),
        (.quoted "pool", .tree [(.quoted "min", .scalar (.integer 1))])]),
    (.quoted "cache", .scalar .null), (.literal "db", .scalar (.integer 2))]

/-- A clean tree that replaces a leaf by a branch and a branch by a leaf, and adds keys. -/
def upperLayer : Tree :=
  [(.quoted "cache", .tree [(.quoted "ttl", .scalar (.integer 60))]),
    (.quoted "env", .scalar (.bool false)),
    (.quoted "db", .tree
      [(.quoted "pool", .scalar (.integer 8)), (.quoted "port", .scalar (.integer 5432)),
        (.quoted "host", .tree [(.quoted "", .scalar .null)])])]

/-- Leaves that meet branches on both sides are merged alike over the flat forms. -/
theorem unflatten_merge_flatten_layers :
    Clean lowerLayer ∧ Clean upperLayer ∧
      unflatten (merge (flatten lowerLayer) (flatten upperLayer))
        = merge lowerLayer upperLayer := by
  have hlower : Clean lowerLayer := by constructor <;> decide
  have hupper : Clean upperLayer := by constructor <;> decide
  exact ⟨hlower, hupper, unflatten_merge_flatten lowerLayer upperLayer hlower hupper⟩

end LayeredConfig.Tree
