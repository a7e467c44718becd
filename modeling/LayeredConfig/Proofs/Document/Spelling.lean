import LayeredConfig.Proofs.Document.Settled
import LayeredConfig.Value.View

/-!
# Configurations as documents spell them

What is written carries the sigil again, so that a text is written as a document spells it. Settled
texts are spelled alike only when they are the same, so that spelled trees take keys, values and
overlays as the trees themselves do.
-/

namespace LayeredConfig

open Document

variable {sigil : Char}

/-! ### Spelling -/

/-- A text as a document spells it, without a mark. -/
def Text.spelled (sigil : Char) (text : Text) : Text := .quoted (text.toRaw sigil)

/-- A leaf whose text, if it is one, is spelled. -/
def Scalar.spelled (sigil : Char) : Scalar → Scalar
  | .text t => .text (t.spelled sigil)
  | other => other

mutual

/-- A value whose texts are spelled, at any depth. -/
def Value.spelled (sigil : Char) : Value → Value
  | .scalar s => .scalar (s.spelled sigil)
  | .tree entries => .tree (Tree.spelled sigil entries)

/-- A tree whose keys and texts are spelled, at any depth. -/
def Tree.spelled (sigil : Char) : List (Text × Value) → Tree
  | [] => []
  | (key, value) :: rest => (key.spelled sigil, value.spelled sigil) :: Tree.spelled sigil rest

end

/-- A string of a document is spelled as it was. -/
@[simp] theorem Text.spelled_ofRaw (sigil : Char) (raw : String) :
    (ofRaw sigil raw).spelled sigil = .quoted raw := by
  rw [spelled, toRaw_ofRaw]

private theorem Text.spelled_inj {t u : Text} (ht : t.Settled sigil) (hu : u.Settled sigil) :
    t.spelled sigil = u.spelled sigil ↔ t = u := by
  constructor
  · intro h
    exact toRaw_injective ht hu (Text.quoted.inj h)
  · rintro rfl
    rfl

/-- The number of a document is spelled as it is. -/
@[simp] theorem Scalar.spelled_ofNumber (sigil : Char) (n : Yaml.Number) :
    (ofNumber n).spelled sigil = ofNumber n := by
  cases n with
  | unsigned n =>
    rw [ofNumber, ofUnsigned]
    split <;> rfl
  | negative n => rfl
  | float x => rfl

/-- A spelled leaf is written, under any sigil, as the leaf is written under its own. -/
theorem Scalar.toJson_spelled (other : Char) (s : Scalar) :
    (s.spelled sigil).toJson other = s.toJson sigil := by
  cases s <;> rfl

namespace Tree

private theorem toMembers_spelled (other : Char) (tree : Tree) :
    toMembers other (spelled sigil tree) = toMembers sigil tree := by
  induction tree using induct with
  | nil => rfl
  | leaf key s rest ih =>
    simp only [spelled, Value.spelled, toMembers, Value.toJson, ih, Scalar.toJson_spelled]
    rfl
  | branch key below rest ihbelow ihrest =>
    simp only [spelled, Value.spelled, toMembers, Value.toJson, ihbelow, ihrest]
    rfl

/-- Trees that are spelled alike are written alike. -/
theorem toMembers_of_spelled {tree tree' : Tree} {other : Char}
    (h : spelled sigil tree = spelled other tree') :
    toMembers sigil tree = toMembers other tree' := by
  rw [← toMembers_spelled sigil tree, h, toMembers_spelled]

end Tree

/-- Values that are spelled alike are written alike. -/
theorem Value.toJson_of_spelled {value value' : Value} {other : Char}
    (h : value.spelled sigil = value'.spelled other) :
    value.toJson sigil = value'.toJson other := by
  cases value with
  | scalar s =>
    cases value' with
    | scalar s' =>
      rw [toJson, toJson, ← Scalar.toJson_spelled sigil s, Value.scalar.inj h,
        Scalar.toJson_spelled]
    | tree entries' => cases h
  | tree entries =>
    cases value' with
    | scalar s' => cases h
    | tree entries' =>
      rw [toJson, toJson, Tree.toMembers_of_spelled (Value.tree.inj h)]

/-! ### Entries -/

namespace Tree

variable {key : Text} {tree : Tree}

/-- Altering a key and altering its spelling are the same, if the old values are spelled alike. -/
theorem spelled_alter (htree : EntriesSettled sigil tree) (hkey : key.Settled sigil)
    {change change' : Option Value → Value}
    (hchange : (change (Entries.find? key tree)).spelled sigil
      = change' ((Entries.find? key tree).map (Value.spelled sigil))) :
    spelled sigil (Entries.alter key change tree)
      = Entries.alter (key.spelled sigil) change' (spelled sigil tree) := by
  induction tree with
  | nil =>
    simp only [Entries.find?, Option.map_none] at hchange
    simp only [Entries.alter, spelled, hchange]
  | cons entry rest ih =>
    obtain ⟨held, value⟩ := entry
    obtain ⟨hheld, -, hrest⟩ := htree
    by_cases he : held = key
    · simp only [Entries.find?, he, if_true, Option.map_some] at hchange
      simp only [Entries.alter, spelled, he, if_true, hchange]
    · have hspelled : held.spelled sigil ≠ key.spelled sigil :=
        fun h ↦ he ((Text.spelled_inj hheld hkey).mp h)
      simp only [Entries.find?, he, if_false] at hchange
      simp only [Entries.alter, spelled, he, hspelled, if_false, ih hrest hchange]

/-- A spelled value is stored under a spelled key. -/
theorem spelled_insert (htree : EntriesSettled sigil tree) (hkey : key.Settled sigil)
    (value : Value) :
    spelled sigil (Entries.insert key value tree)
      = Entries.insert (key.spelled sigil) (value.spelled sigil) (spelled sigil tree) :=
  spelled_alter htree hkey rfl

/-! ### Merging -/

/-- Laying a value over another commutes with spelling if merging does where both are trees. -/
theorem spelled_mergeValue {old : Option Value} {overlay : Value}
    (hmerge : ∀ entries below, old = some (.tree entries) → overlay = .tree below →
      spelled sigil (merge entries below) = merge (spelled sigil entries) (spelled sigil below)) :
    (mergeValue old overlay).spelled sigil
      = mergeValue (old.map (Value.spelled sigil)) (overlay.spelled sigil) := by
  cases overlay with
  | scalar s => simp only [mergeValue_scalar, Value.spelled]
  | tree below =>
    match old with
    | none => simp only [mergeValue, Option.map_none, Value.spelled]
    | some (.scalar s) => simp only [mergeValue, Option.map_some, Value.spelled]
    | some (.tree entries) =>
      simp only [mergeValue_tree_tree, Option.map_some, Value.spelled, hmerge entries below rfl rfl]

private theorem Settled.mergeEntry {base : Tree} {value : Value} (hbase : Settled sigil base)
    (hkey : key.Settled sigil) (hvalue : value.Settled sigil) :
    Settled sigil (Entries.alter key (fun old ↦ mergeValue old value) base) := by
  have hmerged : Settled sigil (Tree.merge base [(key, value)]) :=
    hbase.merge ⟨hkey, hvalue, trivial⟩
  rwa [merge_cons, merge_nil] at hmerged

/-- Settled trees are merged as they are spelled. -/
theorem spelled_merge {base overlay : Tree} (hbase : Settled sigil base)
    (hoverlay : EntriesSettled sigil overlay) :
    spelled sigil (merge base overlay) = merge (spelled sigil base) (spelled sigil overlay) := by
  induction overlay using induct generalizing base with
  | nil => simp only [merge_nil, spelled]
  | leaf key s rest ih =>
    obtain ⟨hkey, hleaf, hrest⟩ := hoverlay
    rw [merge_cons, spelled, merge_cons, ih (hbase.mergeEntry hkey hleaf) hrest,
      spelled_alter hbase.2 hkey]
    exact spelled_mergeValue nofun
  | branch key below rest ihbelow ihrest =>
    obtain ⟨hkey, hbelow, hrest⟩ := hoverlay
    rw [merge_cons, spelled, merge_cons, ihrest (hbase.mergeEntry hkey hbelow) hrest,
      spelled_alter hbase.2 hkey]
    refine spelled_mergeValue fun entries _ hold hsame ↦ ?_
    cases hsame
    exact ihbelow (hbase.of_find? hold) hbelow.2

end Tree

namespace Value

variable {base overlay : Value}

private theorem Settled.merge (hbase : base.Settled sigil) (hoverlay : overlay.Settled sigil) :
    (base.merge overlay).Settled sigil := by
  rw [Value.merge]
  match base, overlay with
  | _, .scalar s =>
    rw [Tree.mergeValue_scalar]
    exact hoverlay
  | .scalar s, .tree below =>
    rw [Tree.mergeValue_tree_of_not_tree below (by simp)]
    exact hoverlay
  | .tree entries, .tree below =>
    rw [Tree.mergeValue_tree_tree]
    exact Tree.Settled.merge hbase hoverlay.2

private theorem spelled_merge (hbase : base.Settled sigil) (hoverlay : overlay.Settled sigil) :
    (base.merge overlay).spelled sigil = (base.spelled sigil).merge (overlay.spelled sigil) := by
  rw [Value.merge, Value.merge]
  refine Tree.spelled_mergeValue fun entries below hentries hbelow ↦ ?_
  cases hentries
  subst hbelow
  exact Tree.spelled_merge hbase hoverlay.2

/-- Settled values are merged in order as they are spelled. -/
theorem spelled_mergeAll {overlays : List Value} (hbase : base.Settled sigil)
    (hoverlays : ∀ overlay ∈ overlays, overlay.Settled sigil) :
    (mergeAll base overlays).spelled sigil
      = mergeAll (base.spelled sigil) (overlays.map (Value.spelled sigil)) := by
  induction overlays generalizing base with
  | nil => rfl
  | cons overlay rest ih =>
    obtain ⟨hoverlay, hrest⟩ := List.forall_mem_cons.mp hoverlays
    rw [mergeAll, List.foldl_cons, ← mergeAll, ih (hbase.merge hoverlay) hrest,
      spelled_merge hbase hoverlay]
    rfl

end Value

end LayeredConfig
