import LayeredConfig.Document.Conversion
import LayeredConfig.Proofs.Results
import LayeredConfig.Proofs.Tree.Shape
import LayeredConfig.Proofs.Yaml.NumberText
import LayeredConfig.Tree.Filter
import LayeredConfig.Tree.Merge

/-!
# Settled configurations

A configuration is settled under a sigil when its written form says all about it: no quoted text
begins with the sigil, and an integer is held as unsigned only beyond the signed range. Conversion
gives settled configurations, and merging and filtering keep them settled.
-/

namespace LayeredConfig

open Document

variable {sigil : Char}

/-- A text is settled unless it is quoted and begins with the sigil. -/
def Text.Settled (sigil : Char) : Text → Prop
  | .quoted s => s.toList.head? ≠ some sigil
  | .literal _ => True

/-- A leaf is settled when its text is, and when an unsigned integer is beyond the signed range. -/
def Scalar.Settled (sigil : Char) : Scalar → Prop
  | .text t => t.Settled sigil
  | .unsigned n => 0x7FFFFFFFFFFFFFFF < n.toNat
  | _ => True

mutual

/-- A value is settled when it is a settled leaf or a tree of settled entries under distinct
keys. -/
def Value.Settled (sigil : Char) : Value → Prop
  | .scalar s => s.Settled sigil
  | .tree entries => Entries.Distinct entries ∧ Tree.EntriesSettled sigil entries

/-- The keys and the values of entries are settled. -/
def Tree.EntriesSettled (sigil : Char) : List (Text × Value) → Prop
  | [] => True
  | (key, value) :: rest =>
    key.Settled sigil ∧ value.Settled sigil ∧ Tree.EntriesSettled sigil rest

end

/-- A tree is settled when its keys are distinct and its keys and values are settled. -/
def Tree.Settled (sigil : Char) (tree : Tree) : Prop :=
  Entries.Distinct tree ∧ EntriesSettled sigil tree

/-! ### Texts and leaves -/

/-- A string of a document becomes a settled text. -/
theorem Text.settled_ofRaw (sigil : Char) (raw : String) : (ofRaw sigil raw).Settled sigil := by
  rw [ofRaw]
  split
  · next h => simp [Settled, h]
  · next c rest h =>
    split
    · trivial
    · next hc => simpa [Settled, h] using hc

/-- A settled text is read back from its written form. -/
theorem Text.ofRaw_toRaw {t : Text} (h : t.Settled sigil) : ofRaw sigil (t.toRaw sigil) = t := by
  cases t with
  | literal s => exact ofRaw_toRaw_literal sigil s
  | quoted s =>
    rw [toRaw, ofRaw]
    split
    · rfl
    · next c rest hs =>
      have hc : c ≠ sigil := by simpa [Settled, hs] using h
      rw [if_neg hc]

/-- Different settled texts have different written forms. -/
theorem Text.toRaw_injective {t u : Text} (ht : t.Settled sigil) (hu : u.Settled sigil)
    (h : t.toRaw sigil = u.toRaw sigil) : t = u := by
  rw [← ofRaw_toRaw ht, h, ofRaw_toRaw hu]

private theorem Scalar.settled_ofNumber (sigil : Char) (n : Yaml.Number) :
    (ofNumber n).Settled sigil := by
  cases n with
  | unsigned n =>
    rw [ofNumber, ofUnsigned]
    split
    · trivial
    · next h =>
      rw [Settled]
      omega
  | negative n => trivial
  | float x => trivial

/-! ### Entries -/

namespace Tree

/-- Entries are settled when each of them is. -/
theorem entriesSettled_iff {tree : Tree} :
    EntriesSettled sigil tree ↔ ∀ entry ∈ tree, entry.1.Settled sigil ∧ entry.2.Settled sigil := by
  induction tree with
  | nil => simp [EntriesSettled]
  | cons entry rest ih => simp [EntriesSettled, ih, and_assoc]

/-- A tree without entries is settled. -/
theorem settled_nil : Settled sigil [] := ⟨List.nodup_nil, trivial⟩

/-- What a key of a settled tree holds is settled. -/
theorem Settled.of_find? {tree : Tree} (h : Settled sigil tree) {key : Text} {value : Value}
    (hf : Entries.find? key tree = some value) : value.Settled sigil :=
  (entriesSettled_iff.mp h.2 _ (Entries.mem_of_find? hf)).2

/-- Giving a settled key a settled value keeps a tree settled. -/
theorem Settled.alter {tree : Tree} (h : Settled sigil tree) {key : Text}
    {change : Option Value → Value} (hkey : key.Settled sigil)
    (hvalue : (change (Entries.find? key tree)).Settled sigil) :
    Settled sigil (Entries.alter key change tree) := by
  refine ⟨Entries.distinct_alter key change h.1, entriesSettled_iff.mpr fun entry he ↦ ?_⟩
  rcases Entries.mem_of_mem_alter he with he | rfl
  · exact entriesSettled_iff.mp h.2 entry he
  · exact ⟨hkey, hvalue⟩

private theorem Settled.sublist {tree fewer : Tree} (h : Settled sigil tree)
    (hs : fewer.Sublist tree) :
    Settled sigil fewer :=
  ⟨h.1.sublist (hs.map Prod.fst),
    entriesSettled_iff.mpr fun entry he ↦ entriesSettled_iff.mp h.2 entry (hs.subset he)⟩

/-! ### Merging and filtering -/

/-- Laying settled entries over a settled tree gives a settled one. -/
theorem Settled.merge {base overlay : Tree} (hbase : Settled sigil base)
    (hoverlay : EntriesSettled sigil overlay) : Settled sigil (merge base overlay) := by
  induction overlay using induct generalizing base with
  | nil => rwa [merge_nil]
  | leaf key s rest ih =>
    obtain ⟨hkey, hleaf, hrest⟩ := hoverlay
    rw [merge_cons]
    refine ih (hbase.alter hkey ?_) hrest
    rwa [mergeValue_scalar]
  | branch key below rest ihbelow ihrest =>
    obtain ⟨hkey, hbelow, hrest⟩ := hoverlay
    rw [merge_cons]
    refine ihrest (hbase.alter hkey ?_) hrest
    -- what the key held counts only if it is a tree
    match hold : Entries.find? key base with
    | some (.tree entries) =>
      rw [mergeValue_tree_tree]
      exact ihbelow (hbase.of_find? hold) hbelow.2
    | some (.scalar s) =>
      rw [mergeValue_tree_of_not_tree below (by simp)]
      exact hbelow
    | none =>
      rw [mergeValue_tree_of_not_tree below (by simp)]
      exact hbelow

/-- Merging settled trees in order over a settled one gives a settled one. -/
theorem Settled.mergeAll {base : Tree} {overlays : List Tree} (hbase : Settled sigil base)
    (hoverlays : ∀ overlay ∈ overlays, Settled sigil overlay) :
    Settled sigil (mergeAll base overlays) := by
  induction overlays generalizing base with
  | nil => exact hbase
  | cons overlay rest ih =>
    obtain ⟨hoverlay, hrest⟩ := List.forall_mem_cons.mp hoverlays
    exact ih (hbase.merge hoverlay.2) hrest

/-- Dropping keys keeps a tree settled. -/
theorem Settled.dropKeys {tree : Tree} (h : Settled sigil tree) (ignored : List String) :
    Settled sigil (dropKeys ignored tree) :=
  h.sublist List.filter_sublist

/-- What lies below the first key of a settled tree is settled. -/
theorem Settled.belowMainKey {tree below : Tree} (h : Settled sigil tree)
    (hbelow : Tree.belowMainKey tree = .ok below) : Settled sigil below := by
  match tree with
  | [] => cases hbelow
  | (_, .scalar _) :: _ => cases hbelow
  | (_, .tree []) :: _ => cases hbelow
  | (_, .tree (entry :: more)) :: _ =>
    cases hbelow
    exact h.2.2.1

end Tree

/-! ### Conversion -/

namespace Document

/-- The characters that the text of a key or an item number can begin with when it was no string: a
digit, a minus sign, a dot, or the first letter of a truth value. -/
def Lead (c : Char) : Prop := Yaml.Number.Lead c ∨ c = 't' ∨ c = 'f'

/-- A text that begins with a character that is not the sigil is settled. -/
theorem settled_of_lead {s : String} (hsigil : ¬ Lead sigil)
    (h : ∃ c, s.toList.head? = some c ∧ Lead c) : (Text.quoted s).Settled sigil := by
  obtain ⟨c, hc, hlead⟩ := h
  rw [Text.Settled, hc]
  rintro ⟨⟩
  exact hsigil hlead

/-- A mapping key becomes a settled text. -/
theorem settled_convertKey (hsigil : ¬ Lead sigil) :
    ∀ {key : Yaml.Value} {text : Text}, convertKey sigil key = .ok text → text.Settled sigil
  | .string s, _, h => by
    cases h
    exact Text.settled_ofRaw sigil s
  | .number n, _, h => by
    cases h
    obtain ⟨c, hc, hlead⟩ := n.lead_text
    exact settled_of_lead hsigil ⟨c, hc, .inl hlead⟩
  | .bool true, _, h => by
    cases h
    exact settled_of_lead hsigil ⟨'t', rfl, .inr (.inl rfl)⟩
  | .bool false, _, h => by
    cases h
    exact settled_of_lead hsigil ⟨'f', rfl, .inr (.inr rfl)⟩
  | .null, _, h => by
    cases h
    simp [Text.Settled]
  | .tagged _ value, _, h => by
    rw [convertKey] at h
    exact settled_convertKey hsigil h
  | .sequence _, _, h => by cases h
  | .mapping _, _, h => by cases h

/-- An item number is a settled text. -/
theorem settled_itemNumber (hsigil : ¬ Lead sigil) (index : Nat) :
    (Text.quoted (toString index)).Settled sigil := by
  obtain ⟨c, hc, hlead⟩ := Yaml.Number.lead_natural index
  exact settled_of_lead hsigil ⟨c, hc, .inl hlead⟩

mutual

/-- Conversion gives settled values. -/
theorem settled_convert (hsigil : ¬ Lead sigil) :
    ∀ {value : Yaml.Value} {converted : Value},
      convert sigil value = .ok converted → converted.Settled sigil
  | .null, _, h => by
    cases h
    trivial
  | .bool _, _, h => by
    cases h
    trivial
  | .number n, _, h => by
    cases h
    exact Scalar.settled_ofNumber sigil n
  | .string s, _, h => by
    cases h
    exact Text.settled_ofRaw sigil s
  | .sequence items, _, h => by
    rw [convert] at h
    obtain ⟨tree, hitems, rfl⟩ := map_eq_ok_iff.mp h
    exact settled_convertItems hsigil Tree.settled_nil hitems
  | .mapping pairs, _, h => by
    rw [convert] at h
    obtain ⟨tree, hpairs, rfl⟩ := map_eq_ok_iff.mp h
    exact settled_convertPairs hsigil Tree.settled_nil hpairs
  | .tagged _ value, _, h => by
    rw [convert] at h
    exact settled_convert hsigil h

/-- Adding the items of a sequence keeps a tree settled. -/
theorem settled_convertItems (hsigil : ¬ Lead sigil) :
    ∀ {items : List Yaml.Value} {tree result : Tree} {index : Nat}, tree.Settled sigil →
      convertItems sigil tree index items = .ok result → result.Settled sigil
  | [], _, _, _, htree, h => by
    cases h
    exact htree
  | item :: rest, _, _, index, htree, h => by
    rw [convertItems] at h
    cases hitem : convert sigil item with
    | error fault => simp [hitem] at h
    | ok value =>
      rw [hitem] at h
      exact settled_convertItems hsigil
        (htree.alter (settled_itemNumber hsigil index) (settled_convert hsigil hitem)) h

/-- Adding the pairs of a mapping keeps a tree settled. -/
theorem settled_convertPairs (hsigil : ¬ Lead sigil) :
    ∀ {pairs : List (Yaml.Value × Yaml.Value)} {tree result : Tree}, tree.Settled sigil →
      convertPairs sigil tree pairs = .ok result → result.Settled sigil
  | [], _, _, htree, h => by
    cases h
    exact htree
  | (key, item) :: rest, _, _, htree, h => by
    rw [convertPairs] at h
    cases hkey : convertKey sigil key with
    | error fault => simp [hkey] at h
    | ok text =>
      rw [hkey] at h
      cases hitem : convert sigil item with
      | error fault => simp [hitem] at h
      | ok value =>
        rw [hitem] at h
        exact settled_convertPairs hsigil
          (htree.alter (settled_convertKey hsigil hkey) (settled_convert hsigil hitem)) h

end

end Document

end LayeredConfig
