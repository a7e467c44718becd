import LayeredConfig.Proofs.Tree.Place

/-!
# Replaying assignments

A list of tips is replayed by assigning each value at its path, one after the other. Trees that are
missing on the way are created, and a leaf on the way stops the replay. The tips of a tree with
distinct keys, replayed on nothing, build that tree again in the order it has.
-/

namespace LayeredConfig.Tree

/-- The tree after a value is assigned at a path; `none` when the path is empty or a leaf stands on
the way. -/
def assign (value : Value) : List Text → Tree → Option Tree
  | [], _ => none
  | [key], tree => some (Entries.insert key value tree)
  | key :: next :: path, tree =>
    match Entries.find? key tree with
    | some (.scalar _) => none
    | slot => (assign value (next :: path) (branchOf slot)).map fun below ↦
      Entries.insert key (.tree below) tree

/-- The tree after tips are assigned in it one after the other. -/
def replay : List Tip → Tree → Option Tree
  | [], tree => some tree
  | tip :: rest, tree => (assign tip.2 tip.1 tree).bind (replay rest)

private theorem replay_append (first second : List Tip) (tree : Tree) :
    replay (first ++ second) tree = (replay first tree).bind (replay second) := by
  induction first generalizing tree with
  | nil => rfl
  | cons tip rest ih =>
    simp only [List.cons_append, replay]
    cases assign tip.2 tip.1 tree with
    | none => rfl
    | some after => exact ih after

private theorem assign_below (value : Value) {key : Text} {path : List Text} {tree : Tree}
    (hpath : path ≠ []) (hslot : ∀ s, Entries.find? key tree ≠ some (.scalar s)) :
    assign value (key :: path) tree
      = (assign value path (branchOf (Entries.find? key tree))).map fun below ↦
        Entries.insert key (.tree below) tree := by
  cases path with
  | nil => exact absurd rfl hpath
  | cons next path =>
    rw [assign]
    split
    · next s hs => exact absurd hs (hslot s)
    · rfl

private theorem replay_below {key : Text} {list : List Tip} {tree : Tree} (hne : list ≠ [])
    (hpath : ∀ tip ∈ list, tip.1 ≠ [])
    (hslot : ∀ s, Entries.find? key tree ≠ some (.scalar s)) :
    replay (list.map (Tip.below key)) tree
      = (replay list (branchOf (Entries.find? key tree))).map fun below ↦
        Entries.insert key (.tree below) tree := by
  induction list generalizing tree with
  | nil => exact absurd rfl hne
  | cons tip rest ih =>
    obtain ⟨htip, hrest⟩ := List.forall_mem_cons.mp hpath
    simp only [List.map_cons, replay, Tip.below]
    rw [assign_below tip.2 htip hslot]
    cases assign tip.2 tip.1 (branchOf (Entries.find? key tree)) with
    | none => rfl
    | some below =>
      simp only [Option.map_some, Option.bind_some]
      by_cases hr : rest = []
      · subst hr
        rfl
      · have hheld : Entries.find? key (Entries.insert key (.tree below) tree)
            = some (.tree below) := Entries.find?_alter_self key _ tree
        have hagain : ∀ below', Entries.insert key (.tree below')
            (Entries.insert key (.tree below) tree) = Entries.insert key (.tree below') tree :=
          fun below' ↦ Entries.alter_alter key _ _ tree
        have hslot' : ∀ s, Entries.find? key (Entries.insert key (.tree below) tree)
            ≠ some (.scalar s) := by simp [hheld]
        have hreplay := ih hr hrest hslot'
        simp only [hheld, hagain, branchOf_tree] at hreplay
        exact hreplay

private theorem replay_tips_append {tree : Tree} (h : WellKeyed tree) (done : Tree)
    (hd : Entries.Distinct (done ++ tree)) :
    replay (tips tree) done = some (done ++ tree) := by
  induction tree using induct generalizing done with
  | nil => simp [replay]
  | leaf key s rest ih =>
    have hnew := Entries.not_mem_keys_of_distinct_append hd
    obtain ⟨-, hr⟩ := wellKeyed_rest h
    rw [tips_leaf, replay, assign, Option.bind_some, Entries.insert_of_not_mem key _ hnew,
      ih hr _ (by simpa using hd), List.append_assoc]
    rfl
  | branch key below rest ihb ihr =>
    have hnew := Entries.not_mem_keys_of_distinct_append hd
    obtain ⟨-, hb, hr⟩ := (wellKeyed_branch key below rest).mp h
    have hrest := ihr hr (done ++ [(key, .tree below)]) (by simpa using hd)
    rw [List.append_assoc, List.singleton_append] at hrest
    by_cases he : below = []
    · subst he
      rw [tips_empty, replay, assign, Option.bind_some, Entries.insert_of_not_mem key _ hnew,
        hrest]
    · have hnone := (Entries.find?_eq_none_iff key done).mpr hnew
      have hslot : ∀ s, Entries.find? key done ≠ some (.scalar s) := by simp [hnone]
      have hbelow := replay_below (tips_ne_nil he) (fun _ ↦ path_ne_nil_of_mem_tips) hslot
      rw [hnone, branchOf_none, ihb hb [] hb.1, Option.map_some, List.nil_append,
        Entries.insert_of_not_mem key _ hnew] at hbelow
      rw [tips_branch key rest he, replay_append, hbelow, Option.bind_some, hrest]

/-- The tips of a tree build that tree from nothing. -/
theorem replay_tips {tree : Tree} (h : WellKeyed tree) : replay (tips tree) [] = some tree :=
  replay_tips_append h [] h.1

end LayeredConfig.Tree
