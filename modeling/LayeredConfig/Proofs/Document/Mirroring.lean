import LayeredConfig.Document.Parse
import LayeredConfig.Proofs.Entries.Building
import LayeredConfig.Proofs.Results
import LayeredConfig.Proofs.Yaml.Occurrence
import Mathlib.Data.List.Nodup

/-!
# Conversion mirrors the YAML value

`Mirrors` says, without a conversion at hand, which configuration value a YAML value stands for:
scalars by kind, sequences with their item numbers as keys, mappings with one entry for each text
of a key. Conversion of a collection is conversion of its parts followed by the building of entries,
so it finds the one value that mirrors, unless a key is a collection under its tags.
-/

namespace LayeredConfig.Document

variable {sigil : Char}

/-- Whether a configuration value is what a YAML value stands for under a sigil. -/
inductive Mirrors (sigil : Char) : Yaml.Value → Value → Prop
  | null : Mirrors sigil .null (.scalar .null)
  | bool (b : Bool) : Mirrors sigil (.bool b) (.scalar (.bool b))
  /-- An integer within the signed range keeps its value. -/
  | integer {n : UInt64} {m : Int64} (h : m.toInt = n.toNat) :
    Mirrors sigil (.number (.unsigned n)) (.scalar (.integer m))
  /-- An integer beyond the signed range stays unsigned. -/
  | unsigned {n : UInt64} (h : 0x7FFFFFFFFFFFFFFF < n.toNat) :
    Mirrors sigil (.number (.unsigned n)) (.scalar (.unsigned n))
  | negative (n : Int64) : Mirrors sigil (.number (.negative n)) (.scalar (.integer n))
  | float (x : Binary64) : Mirrors sigil (.number (.float x)) (.scalar (.float x))
  | text (s : String) : Mirrors sigil (.string s) (.scalar (.text (.ofRaw sigil s)))
  /-- The items of a sequence stand in order under their numbers. -/
  | sequence {items : List Yaml.Value} {tree : Tree}
    (numbers : Entries.keys tree = (List.range items.length).map fun i ↦ .quoted (toString i))
    (values : List.Forall₂ (Mirrors sigil) items (tree.map Prod.snd)) :
    Mirrors sigil (.sequence items) (.tree tree)
  /-- Each text of a key stands where it occurs first, with what the last value under it becomes. -/
  | mapping {pairs : List (Yaml.Value × Yaml.Value)} {entries tree : Tree}
    (texts : List.Forall₂ (fun pair entry ↦ convertKey sigil pair.1 = .ok entry.1) pairs entries)
    (values : List.Forall₂ (fun pair entry ↦ Mirrors sigil pair.2 entry.2) pairs entries)
    (order : Entries.keys tree = (Entries.keys entries).eraseDups)
    (last : ∀ text value, (text, value) ∈ tree ↔
      ∃ before after, entries = before ++ (text, value) :: after ∧ text ∉ Entries.keys after) :
    Mirrors sigil (.mapping pairs) (.tree tree)
  | tagged {tag : String} {value : Yaml.Value} {converted : Value}
    (h : Mirrors sigil value converted) : Mirrors sigil (.tagged tag value) converted

/-- Whether the keys of every mapping in a value become different texts. -/
def KeysApart (sigil : Char) (value : Yaml.Value) : Prop :=
  ∀ pairs, Yaml.Value.Within (.mapping pairs) value →
    (pairs.map fun pair ↦ convertKey sigil pair.1).Nodup

/-! ### The parts of a collection -/

/-- Values under their numbers, counted from `index`. -/
def numbered (index : Nat) (values : List Value) : Tree :=
  (values.zipIdx index).map fun (value, i) ↦ (.quoted (toString i), value)

/-- The keys of numbered values are consecutive numbers. -/
theorem keys_numbered (index : Nat) (values : List Value) :
    Entries.keys (numbered index values)
      = (List.range' index values.length).map fun i ↦ .quoted (toString i) := by
  rw [Entries.keys, numbered, List.map_map, ← List.zipIdx_map_snd index values, List.map_map]
  rfl

/-- The values of numbered values are the values. -/
theorem values_numbered (index : Nat) (values : List Value) :
    (numbered index values).map Prod.snd = values := by
  rw [numbered, List.map_map]
  exact List.zipIdx_map_fst index values

private theorem eq_numbered {tree : Tree}
    (h : Entries.keys tree = (List.range (tree.map Prod.snd).length).map fun i ↦
      .quoted (toString i)) : tree = numbered 0 (tree.map Prod.snd) := by
  rw [List.range_eq_range'] at h
  exact (List.zip_of_prod h rfl).trans
    (List.zip_of_prod (keys_numbered 0 _) (values_numbered 0 _)).symm

private theorem quoted_toString_injective : Function.Injective fun i : Nat ↦ Text.quoted
    (toString i) := by
  intro m n h
  have hdigits : Nat.toDigits 10 m = Nat.toDigits 10 n := by
    rw [← String.ofList_inj, ← Nat.toString_eq_ofList_toDigits, ← Nat.toString_eq_ofList_toDigits]
    exact Text.quoted.inj h
  rw [← Nat.ofDigitChars_ten_toDigits (n := m), hdigits, Nat.ofDigitChars_ten_toDigits]

private theorem distinct_numbered (index : Nat) (values : List Value) :
    Entries.Distinct (numbered index values) := by
  rw [Entries.Distinct, keys_numbered]
  exact List.Nodup.map quoted_toString_injective (List.nodup_range' 1)

private theorem convertItems_eq (sigil : Char) (tree : Tree) (index : Nat)
    (items : List Yaml.Value) :
    convertItems sigil tree index items
      = (items.mapM (convert sigil)).map fun values ↦
          (numbered index values).foldl (fun tree entry ↦ Entries.insert entry.1 entry.2 tree)
            tree := by
  induction items generalizing tree index with
  | nil => rfl
  | cons item rest ih =>
    rw [convertItems, List.mapM_cons]
    cases convert sigil item with
    | error fault => rfl
    | ok value =>
      dsimp only
      rw [ih]
      cases rest.mapM (convert sigil) with
      | error fault => rfl
      | ok values => rfl

/-- The entry that a pair of a mapping gives. -/
def convertPair (sigil : Char) (pair : Yaml.Value × Yaml.Value) :
    Except ConversionFault (Text × Value) :=
  match convertKey sigil pair.1 with
  | .error fault => .error fault
  | .ok text => (convert sigil pair.2).map fun value ↦ (text, value)

private theorem convertPairs_eq (sigil : Char) (tree : Tree)
    (pairs : List (Yaml.Value × Yaml.Value)) :
    convertPairs sigil tree pairs
      = (pairs.mapM (convertPair sigil)).map fun entries ↦
          entries.foldl (fun tree entry ↦ Entries.insert entry.1 entry.2 tree) tree := by
  induction pairs generalizing tree with
  | nil => rfl
  | cons pair rest ih =>
    rw [convertPairs, List.mapM_cons, convertPair]
    cases convertKey sigil pair.1 with
    | error fault => rfl
    | ok text =>
      dsimp only
      cases convert sigil pair.2 with
      | error fault => rfl
      | ok value =>
        dsimp only
        rw [ih]
        cases rest.mapM (convertPair sigil) with
        | error fault => rfl
        | ok entries => rfl

/-- A sequence becomes its converted items under their numbers. -/
theorem convert_sequence (sigil : Char) (items : List Yaml.Value) :
    convert sigil (.sequence items)
      = (items.mapM (convert sigil)).map fun values ↦ .tree (numbered 0 values) := by
  rw [convert, convertItems_eq]
  cases items.mapM (convert sigil) with
  | error fault => rfl
  | ok values =>
    exact congrArg (fun tree ↦ Except.ok (Value.tree tree))
      (Entries.ofList_of_distinct (distinct_numbered 0 values))

/-- A mapping becomes the tree that is built from its entries. -/
theorem convert_mapping (sigil : Char) (pairs : List (Yaml.Value × Yaml.Value)) :
    convert sigil (.mapping pairs)
      = (pairs.mapM (convertPair sigil)).map fun entries ↦ .tree (Entries.ofList entries) := by
  rw [convert, convertPairs_eq]
  cases pairs.mapM (convertPair sigil) with
  | error fault => rfl
  | ok entries => rfl

/-! ### When conversion fails -/

private theorem convertKey_fails_iff (sigil : Char) :
    ∀ key : Yaml.Value,
      (∃ fault, convertKey sigil key = .error fault) ↔ key.untagged.isCollection
  | .null => iff_of_false nofun nofun
  | .bool _ => iff_of_false nofun nofun
  | .number _ => iff_of_false nofun nofun
  | .string _ => iff_of_false nofun nofun
  | .sequence _ => iff_of_true ⟨_, rfl⟩ rfl
  | .mapping _ => iff_of_true ⟨_, rfl⟩ rfl
  | .tagged _ value => convertKey_fails_iff sigil value

private theorem convertPair_fails_iff (sigil : Char) (pair : Yaml.Value × Yaml.Value) :
    (∃ fault, convertPair sigil pair = .error fault) ↔
      pair.1.untagged.isCollection ∨ ∃ fault, convert sigil pair.2 = .error fault := by
  rw [← convertKey_fails_iff sigil, convertPair]
  cases convertKey sigil pair.1 with
  | error fault => exact iff_of_true ⟨fault, rfl⟩ (.inl ⟨fault, rfl⟩)
  | ok text => simp [map_eq_error_iff]

/-- Conversion fails when some mapping has a key that is a collection under its tags. -/
theorem convert_fails_iff (sigil : Char) (value : Yaml.Value) :
    (∃ fault, convert sigil value = .error fault) ↔ value.HasCollectionKey := by
  induction value using Yaml.Value.induct with
  | null | bool b | number n | string s =>
    exact iff_of_false nofun (Yaml.Value.not_hasCollectionKey nofun)
  | sequence items ih =>
    simp only [convert_sequence, map_eq_error_iff]
    rw [mapM_fails_iff, Yaml.Value.hasCollectionKey_sequence]
    exact exists_congr fun item ↦ and_congr_right (ih item)
  | mapping pairs ih =>
    simp only [convert_mapping, map_eq_error_iff]
    rw [mapM_fails_iff, Yaml.Value.hasCollectionKey_mapping]
    refine exists_congr fun pair ↦ and_congr_right fun hpair ↦ ?_
    rw [convertPair_fails_iff, (ih pair hpair).2]
  | tagged tag value ih => rw [convert, ih, Yaml.Value.hasCollectionKey_tagged]

/-! ### What conversion gives -/

private theorem toInt_toInt64 {n : UInt64} (h : n.toNat < 0x8000000000000000) :
    n.toInt64.toInt = n.toNat := by
  refine BitVec.toInt_eq_toNat_of_lt (x := n.toBitVec) ?_
  have hn : n.toBitVec.toNat = n.toNat := rfl
  omega

private theorem ofNumber_eq_iff {n : Yaml.Number} {converted : Value} :
    .scalar (ofNumber n) = converted ↔ Mirrors sigil (.number n) converted := by
  constructor
  · rintro rfl
    cases n with
    | unsigned n =>
      rw [ofNumber, Scalar.ofUnsigned]
      split
      · next hn => exact .integer (toInt_toInt64 hn)
      · next hn => exact .unsigned (by omega)
    | negative n => exact .negative n
    | float x => exact .float x
  · intro h
    cases h with
    | @integer n m h =>
      have hn : n.toNat < 0x8000000000000000 := by
        have hm : m.toInt < 2 ^ 63 := m.toInt_lt
        omega
      have hm : n.toInt64 = m := Int64.toInt_inj.mp ((toInt_toInt64 hn).trans h.symm)
      rw [ofNumber, Scalar.ofUnsigned, if_pos hn, hm]
    | unsigned h =>
      rw [ofNumber, Scalar.ofUnsigned, if_neg (by omega)]
    | negative n => rfl
    | float x => rfl

/-- Numbered values mirror a sequence when each value mirrors its item. -/
theorem mirrors_sequence_iff {items : List Yaml.Value} {converted : Value} :
    Mirrors sigil (.sequence items) converted ↔
      ∃ values, List.Forall₂ (Mirrors sigil) items values ∧
        .tree (numbered 0 values) = converted := by
  constructor
  · intro h
    cases h with
    | @sequence _ tree hnumbers hvalues =>
      have hlength : items.length = (tree.map Prod.snd).length := hvalues.length_eq
      exact ⟨_, hvalues, congrArg Value.tree (eq_numbered (hlength ▸ hnumbers)).symm⟩
  · rintro ⟨values, hvalues, rfl⟩
    refine .sequence ?_ ?_
    · rw [keys_numbered, List.range_eq_range', hvalues.length_eq]
    · rwa [values_numbered]

/-- The tree that is built from entries mirrors a mapping when each entry mirrors its pair. -/
theorem mirrors_mapping_iff {pairs : List (Yaml.Value × Yaml.Value)} {converted : Value} :
    Mirrors sigil (.mapping pairs) converted ↔
      ∃ entries, List.Forall₂ (fun pair entry ↦ convertKey sigil pair.1 = .ok entry.1 ∧
          Mirrors sigil pair.2 entry.2) pairs entries ∧
        .tree (Entries.ofList entries) = converted := by
  constructor
  · intro h
    cases h with
    | mapping htexts hvalues horder hlast =>
      exact ⟨_, forall₂_and.mpr ⟨htexts, hvalues⟩,
        congrArg Value.tree (Entries.eq_ofList_iff.mpr ⟨horder, hlast⟩).symm⟩
  · rintro ⟨entries, hentries, rfl⟩
    obtain ⟨htexts, hvalues⟩ := forall₂_and.mp hentries
    exact .mapping htexts hvalues (Entries.keys_ofList entries) fun text value ↦
      Entries.mem_ofList_iff text value entries

/-- A tag changes nothing about what mirrors a value. -/
theorem mirrors_tagged_iff {tag : String} {value : Yaml.Value} {converted : Value} :
    Mirrors sigil (.tagged tag value) converted ↔ Mirrors sigil value converted := by
  constructor
  · rintro ⟨⟩
    assumption
  · exact .tagged

private theorem convertPair_eq_ok_iff {pair : Yaml.Value × Yaml.Value} {entry : Text × Value} :
    convertPair sigil pair = .ok entry ↔
      convertKey sigil pair.1 = .ok entry.1 ∧ convert sigil pair.2 = .ok entry.2 := by
  rcases entry with ⟨text, value⟩
  rw [convertPair]
  cases convertKey sigil pair.1 with
  | error fault => simp
  | ok found => simp [map_eq_ok_iff, and_comm]

private theorem convert_eq_ok_iff {value : Yaml.Value} {converted : Value} :
    convert sigil value = .ok converted ↔ Mirrors sigil value converted := by
  induction value using Yaml.Value.induct generalizing converted with
  | null =>
    constructor
    · rintro ⟨⟩
      exact .null
    · rintro ⟨⟩
      rfl
  | bool b =>
    constructor
    · rintro ⟨⟩
      exact .bool b
    · rintro ⟨⟩
      rfl
  | number n => rw [convert, Except.ok.injEq, ofNumber_eq_iff]
  | string s =>
    constructor
    · rintro ⟨⟩
      exact .text s
    · rintro ⟨⟩
      rfl
  | sequence items ih =>
    rw [convert_sequence, map_eq_ok_iff, mirrors_sequence_iff]
    refine exists_congr fun values ↦ and_congr_left fun _ ↦ mapM_eq_ok_iff_forall₂ ?_
    exact fun item hitem value ↦ ih item hitem
  | mapping pairs ih =>
    rw [convert_mapping, map_eq_ok_iff, mirrors_mapping_iff]
    refine exists_congr fun entries ↦ and_congr_left fun _ ↦ mapM_eq_ok_iff_forall₂ ?_
    intro pair hpair entry
    rw [convertPair_eq_ok_iff, (ih pair hpair).2]
  | tagged tag value ih => rw [convert, ih, mirrors_tagged_iff]

/-! ### Leaves -/

/-- The leaves of a tree are those of the values that it holds. -/
theorem leafCount_eq_sum (tree : Tree) :
    Tree.leafCount tree = (tree.map fun entry ↦ Tree.valueLeafCount entry.2).sum := by
  induction tree with
  | nil => rfl
  | cons entry rest ih => rw [Tree.leafCount, ih, List.map_cons, List.sum_cons]

private theorem leafCount_numbered (index : Nat) (values : List Value) :
    Tree.leafCount (numbered index values) = (values.map Tree.valueLeafCount).sum :=
  calc
    Tree.leafCount (numbered index values)
    _ = ((numbered index values).map (Tree.valueLeafCount ∘ Prod.snd)).sum := leafCount_eq_sum _
    _ = (values.map Tree.valueLeafCount).sum := by rw [← List.map_map, values_numbered]

private theorem Mirrors.valueLeafCount {value : Yaml.Value} {converted : Value}
    (h : Mirrors sigil value converted) (hkeys : KeysApart sigil value) :
    Tree.valueLeafCount converted = value.scalarCount := by
  induction value using Yaml.Value.induct generalizing converted with
  | null | bool b | number n | string s =>
    cases h
    all_goals rfl
  | sequence items ih =>
    obtain ⟨values, hvalues, rfl⟩ := mirrors_sequence_iff.mp h
    have hcounts : items.map Yaml.Value.scalarCount = values.map Tree.valueLeafCount :=
      map_eq_map_of_forall₂ hvalues fun item hitem value hmirrors ↦
        (ih item hitem hmirrors fun pairs hwithin ↦ hkeys pairs (.item hitem hwithin)).symm
    rw [Tree.valueLeafCount, leafCount_numbered, Yaml.Value.scalarCount,
      Yaml.Value.itemScalarCount_eq_sum, hcounts]
  | mapping pairs ih =>
    obtain ⟨entries, hentries, rfl⟩ := mirrors_mapping_iff.mp h
    have htexts := map_eq_map_of_forall₂ hentries fun pair _ entry hentry ↦ hentry.1
    have hcounts := map_eq_map_of_forall₂ hentries fun pair hpair entry hentry ↦
      ((ih pair hpair).2 hentry.2 fun inner hwithin ↦ hkeys inner (.held hpair hwithin)).symm
    have hdistinct : Entries.Distinct entries := by
      have hnodup := hkeys pairs .here
      rw [htexts] at hnodup
      refine List.Nodup.of_map (fun text ↦ (.ok text : Except ConversionFault Text)) ?_
      rwa [Entries.keys, List.map_map]
    rw [Entries.ofList_of_distinct hdistinct, Tree.valueLeafCount, leafCount_eq_sum,
      Yaml.Value.scalarCount, Yaml.Value.heldScalarCount_eq_sum, hcounts]
  | tagged tag value ih =>
    exact ih (mirrors_tagged_iff.mp h) fun pairs hwithin ↦ hkeys pairs (.tagged hwithin)

/-! ### Documents -/

/-- A collection at the root of a document is converted like any other value. -/
theorem map_rootTree (sigil : Char) (origin : Path) {value : Yaml.Value}
    (h : value.isCollection) :
    (rootTree sigil origin value).map .tree
      = (convert sigil value).mapError fun _ ↦ .keyIsCollection origin := by
  cases value with
  | sequence items => rw [rootTree, convert, map_mapError]
  | mapping pairs => rw [rootTree, convert, map_mapError]
  | _ => cases h

/-- A collection at the root of a document fails as its conversion does. -/
theorem rootTree_eq_error_iff (origin : Path) {value : Yaml.Value} (h : value.isCollection)
    {fault : Fault} :
    rootTree sigil origin value = .error fault ↔
      value.HasCollectionKey ∧ fault = .keyIsCollection origin := by
  rw [← map_eq_error_iff (f := Value.tree), map_rootTree sigil origin h, mapError_eq_error_iff,
    exists_and_right, convert_fails_iff, eq_comm (a := fault)]

/-- **Conversion mirrors the YAML value.** It fails exactly when some mapping in the value has a key
that is a sequence or a mapping under its tags, and then a document that holds the value is refused
because mapping keys must be scalars. Otherwise it gives the one configuration value that mirrors
the YAML value. Where no two keys of one mapping become the same text, there are as many leaves as
scalars that are no keys. -/
theorem convert_mirrors (sigil : Char) (value : Yaml.Value) :
    ((∃ fault, convert sigil value = .error fault) ↔ value.HasCollectionKey) ∧
      (∀ converted, convert sigil value = .ok converted ↔ Mirrors sigil value converted) ∧
      (∀ converted, convert sigil value = .ok converted → KeysApart sigil value →
        Tree.valueLeafCount converted = value.scalarCount) ∧
      ∀ origin, value.isCollection → ∀ fault, rootTree sigil origin value = .error fault ↔
        value.HasCollectionKey ∧ fault = .keyIsCollection origin ∧
          fault.message
            = "Parse error in " ++ origin.quoted ++ ": mapping keys must be scalars" := by
  refine ⟨convert_fails_iff sigil value, fun _ ↦ convert_eq_ok_iff, ?_, ?_⟩
  · intro converted h hkeys
    exact (convert_eq_ok_iff.mp h).valueLeafCount hkeys
  · intro origin hcollection fault
    rw [rootTree_eq_error_iff origin hcollection]
    refine and_congr_right fun _ ↦ (and_iff_left_of_imp ?_).symm
    rintro rfl
    rfl

/-- Two keys that become one text. Below the first of them a mapping has a list for a key. -/
def hiddenListKey : Yaml.Value :=
  .mapping [(.number (.unsigned 1), .tagged "!t" (.mapping [(.tagged "!k" (.sequence []), .null)])),
    (.string "1", .null)]

/-- Keys that become one text, with values of several kinds under them. -/
def meetingKeys : Yaml.Value :=
  .mapping [(.number (.unsigned 1), .null), (.null, .sequence [.bool true, .string "≈x"]),
    (.string "1", .tagged "!t" (.number (.unsigned 0x8000000000000000)))]

/-- What keys that meet become. -/
def metKeys : Value :=
  .tree [(.quoted "1", .scalar (.unsigned 0x8000000000000000)),
    (.quoted "", .tree [(.quoted "0", .scalar (.bool true)),
      (.quoted "1", .scalar (.text (.literal "x")))])]

/-- Keys that are no strings and stay apart. -/
def separateKeys : Yaml.Value :=
  .sequence [.null, .mapping [(.null, .bool true), (.bool true, .null)]]

/-- What separate keys become. -/
def separatedKeys : Value :=
  .tree [(.quoted "0", .scalar .null),
    (.quoted "1", .tree [(.quoted "", .scalar (.bool true)), (.quoted "true", .scalar .null)])]

/-- A key without a text is found although what holds it would be replaced. Keys that meet have the
place of the first and the value of the last, and keys that do not meet keep all scalars. -/
theorem convert_mirrors_meetingKeys :
    rootTree '≈' ⟨"keys.yaml"⟩ hiddenListKey = .error (.keyIsCollection ⟨"keys.yaml"⟩) ∧
      Mirrors '≈' meetingKeys metKeys ∧
      KeysApart '≈' separateKeys ∧
      Tree.valueLeafCount separatedKeys = separateKeys.scalarCount := by
  obtain ⟨-, -, -, hroot⟩ := convert_mirrors '≈' hiddenListKey
  obtain ⟨-, hmirrors, -⟩ := convert_mirrors '≈' meetingKeys
  obtain ⟨-, -, hcount, -⟩ := convert_mirrors '≈' separateKeys
  have hlist : hiddenListKey.HasCollectionKey :=
    ⟨_, .held List.mem_cons_self (.tagged .here), _, List.mem_cons_self, rfl⟩
  have hapart : KeysApart '≈' separateKeys := by
    intro pairs h
    cases h with
    | item hmem h =>
      obtain rfl | rfl := List.mem_pair.mp hmem
      · cases h
      · cases h with
        | here => decide
        | key hmem h =>
          obtain rfl | rfl := List.mem_pair.mp hmem
          all_goals cases h
        | held hmem h =>
          obtain rfl | rfl := List.mem_pair.mp hmem
          all_goals cases h
  exact ⟨(hroot ⟨"keys.yaml"⟩ rfl _).mpr ⟨hlist, rfl, rfl⟩, (hmirrors metKeys).mp rfl, hapart,
    hcount _ rfl hapart⟩

end LayeredConfig.Document
