import LayeredConfig.Yaml.Value
import Mathlib.Algebra.GroupWithZero.Nat

/-!
# What occurs in a YAML value

Induction over a value goes by the values that stand directly in it. `Within` says what occurs in a
value at any depth, keys and what is in them included; a scalar counts only where it is no key.
-/

namespace LayeredConfig.Yaml.Value

private theorem sizeOf_lt_of_mem {pairs : List (Value × Value)} {pair : Value × Value}
    (h : pair ∈ pairs) :
    sizeOf pair.1 < sizeOf pairs ∧ sizeOf pair.2 < sizeOf pairs := by
  have hpair := List.sizeOf_lt_of_mem h
  rcases pair with ⟨key, held⟩
  rw [Prod.mk.sizeOf_spec] at hpair
  dsimp only
  omega

/-- Induction over the items, keys, held values and tagged values of a value. -/
theorem induct {P : Value → Prop} (null : P .null) (bool : ∀ b, P (.bool b))
    (number : ∀ n, P (.number n)) (string : ∀ s, P (.string s))
    (sequence : ∀ items, (∀ item ∈ items, P item) → P (.sequence items))
    (mapping : ∀ pairs, (∀ pair ∈ pairs, P pair.1 ∧ P pair.2) → P (.mapping pairs))
    (tagged : ∀ tag value, P value → P (.tagged tag value)) : ∀ value : Value, P value
  | .null => null
  | .bool b => bool b
  | .number n => number n
  | .string s => string s
  | .sequence items =>
    sequence items fun item _ ↦ induct null bool number string sequence mapping tagged item
  | .mapping pairs =>
    mapping pairs fun pair hpair ↦
      have := sizeOf_lt_of_mem hpair
      ⟨induct null bool number string sequence mapping tagged pair.1,
        induct null bool number string sequence mapping tagged pair.2⟩
  | .tagged tag value =>
    tagged tag value (induct null bool number string sequence mapping tagged value)

/-- Whether a value is a sequence or a mapping. -/
def isCollection : Value → Bool
  | sequence _ => true
  | mapping _ => true
  | _ => false

/-- What is left of a value without the tags in front of it. -/
def untagged : Value → Value
  | tagged _ value => value.untagged
  | value => value

/-! ### Values in values -/

/-- Whether a value occurs in another at any depth: it is the other itself, or occurs in an item,
in a key, in the value under a key, or below a tag. -/
inductive Within (inner : Value) : Value → Prop
  | here : Within inner inner
  | item {items : List Value} {item : Value} (hmem : item ∈ items) (h : Within inner item) :
    Within inner (sequence items)
  | key {pairs : List (Value × Value)} {pair : Value × Value} (hmem : pair ∈ pairs)
    (h : Within inner pair.1) : Within inner (mapping pairs)
  | held {pairs : List (Value × Value)} {pair : Value × Value} (hmem : pair ∈ pairs)
    (h : Within inner pair.2) : Within inner (mapping pairs)
  | tagged {tag : String} {value : Value} (h : Within inner value) : Within inner (tagged tag value)

/-- A collection occurs in collections only, once tags are set aside. -/
theorem Within.isCollection_untagged {inner value : Value} (h : Within inner value)
    (hinner : inner.isCollection) : value.untagged.isCollection := by
  induction h with
  | here =>
    cases inner with
    | sequence items => rfl
    | mapping pairs => rfl
    | _ => cases hinner
  | item => rfl
  | key => rfl
  | held => rfl
  | tagged h ih => exact ih

/-- Whether some mapping in a value has a key that is a sequence or a mapping under its tags. -/
def HasCollectionKey (value : Value) : Prop :=
  ∃ pairs, Within (mapping pairs) value ∧ ∃ pair ∈ pairs, pair.1.untagged.isCollection

/-- A value that is no collection under its tags has no mapping in it. -/
theorem not_hasCollectionKey {value : Value} (h : ¬ value.untagged.isCollection) :
    ¬ value.HasCollectionKey := by
  rintro ⟨pairs, hwithin, -⟩
  exact h (hwithin.isCollection_untagged rfl)

/-- The mappings in a sequence are those in its items. -/
theorem hasCollectionKey_sequence {items : List Value} :
    (sequence items).HasCollectionKey ↔ ∃ item ∈ items, item.HasCollectionKey := by
  constructor
  · rintro ⟨pairs, hwithin, hkey⟩
    cases hwithin with
    | item hmem h => exact ⟨_, hmem, pairs, h, hkey⟩
  · rintro ⟨item, hmem, pairs, h, hkey⟩
    exact ⟨pairs, .item hmem h, hkey⟩

/-- A mapping has such a key itself, or one of the values under its keys has. -/
theorem hasCollectionKey_mapping {pairs : List (Value × Value)} :
    (mapping pairs).HasCollectionKey ↔
      ∃ pair ∈ pairs, pair.1.untagged.isCollection ∨ pair.2.HasCollectionKey := by
  constructor
  · rintro ⟨inner, hwithin, hkey⟩
    cases hwithin with
    | here =>
      obtain ⟨pair, hmem, hcollection⟩ := hkey
      exact ⟨pair, hmem, .inl hcollection⟩
    -- A mapping in a key makes the key itself a collection.
    | key hmem h => exact ⟨_, hmem, .inl (h.isCollection_untagged rfl)⟩
    | held hmem h => exact ⟨_, hmem, .inr ⟨inner, h, hkey⟩⟩
  · rintro ⟨pair, hmem, hcollection | ⟨inner, h, hkey⟩⟩
    · exact ⟨pairs, .here, pair, hmem, hcollection⟩
    · exact ⟨inner, .held hmem h, hkey⟩

/-- A tag changes nothing about the mappings below it. -/
theorem hasCollectionKey_tagged {tag : String} {value : Value} :
    (tagged tag value).HasCollectionKey ↔ value.HasCollectionKey := by
  constructor
  · rintro ⟨pairs, hwithin, hkey⟩
    cases hwithin with
    | tagged h => exact ⟨pairs, h, hkey⟩
  · rintro ⟨pairs, h, hkey⟩
    exact ⟨pairs, .tagged h, hkey⟩

/-! ### Counting scalars -/

mutual

/-- The number of scalars in a value, those in keys left out. -/
def scalarCount : Value → Nat
  | sequence items => itemScalarCount items
  | mapping pairs => heldScalarCount pairs
  | tagged _ value => value.scalarCount
  | _ => 1

/-- The number of scalars in the items of a sequence. -/
def itemScalarCount : List Value → Nat
  | [] => 0
  | item :: rest => item.scalarCount + itemScalarCount rest

/-- The number of scalars in the values under the keys of a mapping. -/
def heldScalarCount : List (Value × Value) → Nat
  | [] => 0
  | (_, held) :: rest => held.scalarCount + heldScalarCount rest

end

/-- The scalars in items are those in each item. -/
theorem itemScalarCount_eq_sum (items : List Value) :
    itemScalarCount items = (items.map scalarCount).sum := by
  induction items with
  | nil => rfl
  | cons item rest ih => rw [itemScalarCount, ih, List.map_cons, List.sum_cons]

/-- The scalars under keys are those in each value. -/
theorem heldScalarCount_eq_sum (pairs : List (Value × Value)) :
    heldScalarCount pairs = (pairs.map fun pair ↦ pair.2.scalarCount).sum := by
  induction pairs with
  | nil => rfl
  | cons pair rest ih => rw [heldScalarCount, ih, List.map_cons, List.sum_cons]

end LayeredConfig.Yaml.Value
