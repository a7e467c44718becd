import LayeredConfig.Proofs.Document.Settled
import LayeredConfig.Value.View
import Mathlib.Data.List.Forall2
import Mathlib.Data.List.Nodup

/-!
# Reading back what is written

The written form of a configuration is data like that of a document. For a settled configuration
the names in each of its objects are different, and converting it gives the configuration again,
with its marks and its order.
-/

namespace LayeredConfig

variable {sigil : Char}

namespace Json

mutual

/-- JSON data as a YAML value: an array is a sequence, and an object is a mapping whose keys are
strings. -/
def toYaml : Json → Yaml.Value
  | .null => .null
  | .bool b => .bool b
  | .integer n => .number (if n.toInt < 0 then .negative n else .unsigned n.toUInt64)
  | .unsigned n => .number (.unsigned n)
  | .float x => .number (.float x)
  | .string s => .string s
  | .array items => .sequence (itemsToYaml items)
  | .object members => .mapping (membersToYaml members)

/-- The items of an array as YAML values. -/
def itemsToYaml : List Json → List Yaml.Value
  | [] => []
  | item :: rest => item.toYaml :: itemsToYaml rest

/-- The members of an object as pairs of YAML values. -/
def membersToYaml : List (String × Json) → List (Yaml.Value × Yaml.Value)
  | [] => []
  | (name, value) :: rest => (.string name, value.toYaml) :: membersToYaml rest

end

mutual

/-- No object has two members of one name, at any depth. -/
def NamesDistinct : Json → Prop
  | .array items => ItemsDistinct items
  | .object members => (members.map Prod.fst).Nodup ∧ MembersDistinct members
  | _ => True

/-- No object among items has two members of one name. -/
def ItemsDistinct : List Json → Prop
  | [] => True
  | item :: rest => item.NamesDistinct ∧ ItemsDistinct rest

/-- No object among the values of members has two members of one name. -/
def MembersDistinct : List (String × Json) → Prop
  | [] => True
  | (_, value) :: rest => value.NamesDistinct ∧ MembersDistinct rest

end

end Json

/-! ### Names -/

namespace Tree

private theorem names_toMembers (sigil : Char) (tree : Tree) :
    (toMembers sigil tree).map Prod.fst = (Entries.keys tree).map (Text.toRaw sigil) := by
  induction tree with
  | nil => rfl
  | cons entry rest ih =>
    rw [toMembers, List.map_cons, ih]
    rfl

/-- Distinct settled keys are written with distinct names. -/
theorem Settled.nodup_names {tree : Tree} (h : Settled sigil tree) :
    ((toMembers sigil tree).map Prod.fst).Nodup := by
  rw [names_toMembers]
  refine List.Nodup.map_on (fun t ht u hu heq ↦ Text.toRaw_injective ?_ ?_ heq) h.1
  · obtain ⟨entry, he, rfl⟩ := List.mem_map.mp ht
    exact (entriesSettled_iff.mp h.2 entry he).1
  · obtain ⟨entry, he, rfl⟩ := List.mem_map.mp hu
    exact (entriesSettled_iff.mp h.2 entry he).1

private theorem EntriesSettled.membersDistinct {tree : Tree} (h : EntriesSettled sigil tree) :
    Json.MembersDistinct (toMembers sigil tree) := by
  induction tree using Tree.induct with
  | nil => trivial
  | leaf key s rest ih =>
    refine ⟨?_, ih h.2.2⟩
    cases s <;> trivial
  | branch key below rest ihbelow ihrest =>
    have hbelow : Settled sigil below := h.2.1
    exact ⟨⟨hbelow.nodup_names, ihbelow hbelow.2⟩, ihrest h.2.2⟩

private theorem Settled.namesDistinct {tree : Tree} (h : Settled sigil tree) :
    (Tree.toJson sigil tree).NamesDistinct :=
  ⟨h.nodup_names, EntriesSettled.membersDistinct h.2⟩

end Tree

/-! ### Values -/

namespace Document

private theorem ofUnsigned_toUInt64 {n : Int64} (h : 0 ≤ n.toInt) :
    Scalar.ofUnsigned n.toUInt64 = .integer n := by
  have hn : n.toUInt64.toNat < 0x8000000000000000 := by
    have hcond : n.toInt = if 2 * n.toUInt64.toNat < 2 ^ 64 then (n.toUInt64.toNat : Int)
        else n.toUInt64.toNat - (2 ^ 64 : Nat) := BitVec.toInt_eq_toNat_cond n.toBitVec
    have hlt := n.toUInt64.toNat_lt
    split at hcond <;> omega
  rw [Scalar.ofUnsigned, if_pos hn]
  rfl

private theorem convert_toYaml_scalar {s : Scalar} (h : s.Settled sigil) :
    convert sigil (s.toJson sigil).toYaml = .ok (.scalar s) := by
  cases s with
  | null => rfl
  | bool b => rfl
  | integer n =>
    rw [Scalar.toJson, Json.toYaml, convert]
    split
    · rfl
    · next hn => rw [ofNumber, ofUnsigned_toUInt64 (by omega)]
  | unsigned n =>
    have hn : ¬ n.toNat < 0x8000000000000000 := by
      rw [Scalar.Settled] at h
      omega
    rw [Scalar.toJson, Json.toYaml, convert, ofNumber, Scalar.ofUnsigned, if_neg hn]
  | float x => rfl
  | text t =>
    rw [Scalar.toJson, Json.toYaml, convert, Text.ofRaw_toRaw h]

private theorem convertPairs_membersToYaml {tree : Tree} (h : Tree.EntriesSettled sigil tree)
    (base : Tree) :
    convertPairs sigil base (Json.membersToYaml (Tree.toMembers sigil tree))
      = .ok (tree.foldl (fun entries pair ↦ Entries.insert pair.1 pair.2 entries) base) := by
  induction tree using Tree.induct generalizing base with
  | nil => rfl
  | leaf key s rest ih =>
    obtain ⟨hkey, hleaf, hrest⟩ := h
    have hvalue : convert sigil ((Value.scalar s).toJson sigil).toYaml = .ok (.scalar s) := by
      rw [Value.toJson]
      exact convert_toYaml_scalar hleaf
    simp only [Tree.toMembers, Json.membersToYaml, convertPairs, convertKey, Text.ofRaw_toRaw hkey,
      hvalue, ih hrest, List.foldl_cons]
  | branch key below rest ihbelow ihrest =>
    obtain ⟨hkey, hbelow, hrest⟩ := h
    have hvalue : convert sigil ((Value.tree below).toJson sigil).toYaml = .ok (.tree below) := by
      rw [Value.toJson, Json.toYaml, convert, ihbelow hbelow.2 []]
      exact congrArg (fun entries ↦ Except.ok (Value.tree entries))
        (Entries.ofList_of_distinct hbelow.1)
    simp only [Tree.toMembers, Json.membersToYaml, convertPairs, convertKey, Text.ofRaw_toRaw hkey,
      hvalue, ihrest hrest, List.foldl_cons]

private theorem convert_toYaml {tree : Tree} (h : tree.Settled sigil) :
    convert sigil (tree.toJson sigil).toYaml = .ok (.tree tree) := by
  rw [Tree.toJson, Json.toYaml, convert, convertPairs_membersToYaml h.2 []]
  exact congrArg (fun entries ↦ Except.ok (Value.tree entries)) (Entries.ofList_of_distinct h.1)

/-- **What documents give together can be written and read back**, whatever is merged and filtered:
it is settled, no object of its written form has two equal names, and converting that form gives it
back. -/
theorem reconvert_filtered (hsigil : ¬ Lead sigil) {values : List Yaml.Value} {trees : List Tree}
    (hconvert : List.Forall₂ (fun value tree ↦ convert sigil value = .ok (.tree tree)) values trees)
    (ignored : List String) {tree : Tree}
    (htree : tree = (Tree.mergeAll [] trees).dropKeys ignored ∨
      Tree.belowMainKey ((Tree.mergeAll [] trees).dropKeys ignored) = .ok tree) :
    tree.Settled sigil ∧ (tree.toJson sigil).NamesDistinct ∧
      convert sigil (tree.toJson sigil).toYaml = .ok (.tree tree) := by
  have htrees : ∀ tree ∈ trees, Tree.Settled sigil tree := by
    intro tree ht
    clear htree
    induction hconvert with
    | nil => cases ht
    | cons hhead _ ih =>
      rcases List.mem_cons.mp ht with rfl | ht
      · exact settled_convert hsigil hhead
      · exact ih ht
  have hdropped : Tree.Settled sigil ((Tree.mergeAll [] trees).dropKeys ignored) :=
    (Tree.settled_nil.mergeAll htrees).dropKeys ignored
  have hsettled : tree.Settled sigil := by
    rcases htree with rfl | hbelow
    · exact hdropped
    · exact hdropped.belowMainKey hbelow
  exact ⟨hsettled, hsettled.namesDistinct, convert_toYaml hsettled⟩

/-- Two documents that share their main key. In the first one a text has the sigil twice, and keys
are no strings. -/
def sharedMainKey : List Yaml.Value :=
  [.mapping [(.string "app", .mapping [(.string "≈k", .string "≈≈"),
      (.bool true, .number (.unsigned 1)), (.null, .string "≈")])],
    .mapping [(.string "extra", .null),
      (.string "app", .sequence [.number (.unsigned 0xFFFFFFFFFFFFFFFF)])]]

/-- What the two documents give below their main key. -/
def belowSharedMainKey : Tree :=
  [(.literal "k", .scalar (.text (.literal "≈"))), (.quoted "true", .scalar (.integer 1)),
    (.quoted "", .scalar (.text (.literal ""))),
    (.quoted "0", .scalar (.unsigned 0xFFFFFFFFFFFFFFFF))]

/-- What lies below the shared main key is written and read back. -/
theorem reconvert_filtered_sharedMainKey :
    belowSharedMainKey.Settled '≈' ∧ (belowSharedMainKey.toJson '≈').NamesDistinct ∧
      convert '≈' (belowSharedMainKey.toJson '≈').toYaml = .ok (.tree belowSharedMainKey) := by
  have hsigil : ¬ Lead '≈' := by simp [Lead, Yaml.Number.Lead]
  have hconvert : List.Forall₂ (fun value tree ↦ convert '≈' value = .ok (.tree tree)) sharedMainKey
      _ := .cons rfl (.cons rfl .nil)
  exact reconvert_filtered hsigil hconvert ["extra"] (.inr rfl)

end Document

end LayeredConfig
