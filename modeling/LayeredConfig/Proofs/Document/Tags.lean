import LayeredConfig.Proofs.Document.Mirroring

/-!
# Tags

A tag changes nothing about what a value or a mapping key becomes, wherever it stands and however
many there are. The root of a document is the exception: what is tagged there is refused, so that
a tag makes a difference exactly where it stands in front of what could be a root without it.
-/

namespace LayeredConfig

namespace Yaml.Value

mutual

/-- A value without the tags in front of it and in it, those of keys included. -/
def stripTags : Value → Value
  | sequence items => sequence (stripItemTags items)
  | mapping pairs => mapping (stripPairTags pairs)
  | tagged _ value => value.stripTags
  | null => null
  | bool b => bool b
  | number n => number n
  | string s => string s

/-- The items of a sequence without tags. -/
def stripItemTags : List Value → List Value
  | [] => []
  | item :: rest => item.stripTags :: stripItemTags rest

/-- The pairs of a mapping without tags. -/
def stripPairTags : List (Value × Value) → List (Value × Value)
  | [] => []
  | (key, held) :: rest => (key.stripTags, held.stripTags) :: stripPairTags rest

end

private theorem stripTags_sequence (items : List Value) :
    (sequence items).stripTags = sequence (items.map stripTags) := by
  rw [stripTags]
  congr 1
  induction items with
  | nil => rfl
  | cons item rest ih => rw [stripItemTags, ih, List.map_cons]

private theorem stripTags_mapping (pairs : List (Value × Value)) :
    (mapping pairs).stripTags
      = mapping (pairs.map fun pair ↦ (pair.1.stripTags, pair.2.stripTags)) := by
  rw [stripTags]
  congr 1
  induction pairs with
  | nil => rfl
  | cons pair rest ih => rw [stripPairTags, ih, List.map_cons]

/-- Whether a tag stands in front of a value. -/
def isTagged : Value → Bool
  | tagged _ _ => true
  | _ => false

end Yaml.Value

namespace Document

variable {sigil : Char}

/-! ### Conversion -/

/-- A key has the text that it has without tags. -/
theorem convertKey_stripTags (sigil : Char) :
    ∀ key : Yaml.Value, convertKey sigil key.stripTags = convertKey sigil key
  | .null => rfl
  | .bool _ => rfl
  | .number _ => rfl
  | .string _ => rfl
  | .sequence _ => rfl
  | .mapping _ => rfl
  | .tagged _ value => convertKey_stripTags sigil value

private theorem convertPair_stripTags {pair : Yaml.Value × Yaml.Value}
    (h : convert sigil pair.2.stripTags = convert sigil pair.2) :
    convertPair sigil (pair.1.stripTags, pair.2.stripTags) = convertPair sigil pair := by
  rw [convertPair, convertKey_stripTags, h, convertPair]

/-- A value becomes what it becomes without tags, or fails as it does without them. -/
theorem convert_stripTags (sigil : Char) (value : Yaml.Value) :
    convert sigil value.stripTags = convert sigil value := by
  induction value using Yaml.Value.induct with
  | null | bool b | number n | string s => rfl
  | sequence items ih =>
    rw [Yaml.Value.stripTags_sequence, convert_sequence, convert_sequence, List.mapM_map]
    exact congrArg _ (mapM_congr_of_forall_mem ih)
  | mapping pairs ih =>
    rw [Yaml.Value.stripTags_mapping, convert_mapping, convert_mapping, List.mapM_map]
    refine congrArg _ (mapM_congr_of_forall_mem fun pair hpair ↦ ?_)
    exact convertPair_stripTags (ih pair hpair).2
  | tagged tag value ih => exact ih

/-! ### Roots -/

/-- Whether a value can be the root of a document: null, a sequence or a mapping. -/
def isRoot : Yaml.Value → Bool
  | .null => true
  | value => value.isCollection

private theorem rootTree_eq_invalidRoot_iff (sigil : Char) (origin : Path) (value : Yaml.Value) :
    rootTree sigil origin value = .error (.invalidRoot origin) ↔ ¬ isRoot value := by
  cases value with
  | null => exact iff_of_false nofun (by simp [isRoot])
  | sequence items | mapping pairs =>
    rw [rootTree_eq_error_iff origin rfl]
    exact iff_of_false (fun h ↦ nomatch h.2) (by simp [isRoot, Yaml.Value.isCollection])
  | _ => exact iff_of_true rfl nofun

private theorem rootTree_congr (origin : Path) {value other : Yaml.Value}
    (hvalue : value.isCollection)
    (hother : other.isCollection) (h : convert sigil value = convert sigil other) :
    rootTree sigil origin value = rootTree sigil origin other := by
  have hmap : (rootTree sigil origin value).map Value.tree
      = (rootTree sigil origin other).map Value.tree := by
    rw [map_rootTree sigil origin hvalue, map_rootTree sigil origin hother, h]
  rcases map_eq_map_iff.mp hmap with ⟨fault, hleft, hright⟩ | ⟨tree, _, hleft, hright, htree⟩
  · rw [hleft, hright]
  · rw [hleft, hright, Value.tree.inj htree]

private theorem rootTree_stripTags (sigil : Char) (origin : Path) {value : Yaml.Value}
    (h : ¬ value.isTagged) :
    rootTree sigil origin value.stripTags = rootTree sigil origin value := by
  cases value with
  | null | bool b | number n | string s => rfl
  | sequence items | mapping pairs =>
    exact rootTree_congr origin rfl rfl (convert_stripTags sigil _)
  | tagged tag value => exact absurd rfl h

private theorem isRoot_stripTags : ∀ value :
    Yaml.Value, isRoot value.stripTags = isRoot value.untagged
  | .null => rfl
  | .bool _ => rfl
  | .number _ => rfl
  | .string _ => rfl
  | .sequence _ => rfl
  | .mapping _ => rfl
  | .tagged _ value => isRoot_stripTags value

private theorem not_isRoot_of_isTagged {value : Yaml.Value} (h : value.isTagged) :
    ¬ isRoot value := by
  cases value with
  | tagged tag value => nofun
  | _ => cases h

/-- **Tags change no outcome** but that of a root with a tag in front, which is refused. Keys and
values are converted as they are without any tag, and so is a root unless it could be one but for
the tags in front of it. -/
theorem outcome_stripTags (sigil : Char) (origin : Path) (value : Yaml.Value) :
    convertKey sigil value.stripTags = convertKey sigil value ∧
      convert sigil value.stripTags = convert sigil value ∧
      (rootTree sigil origin value.stripTags = rootTree sigil origin value ↔
        ¬ (value.isTagged ∧ isRoot value.untagged)) ∧
      (value.isTagged → rootTree sigil origin value = .error (.invalidRoot origin)) := by
  have htagged (h : value.isTagged) : rootTree sigil origin value = .error (.invalidRoot origin) :=
    (rootTree_eq_invalidRoot_iff sigil origin value).mpr (not_isRoot_of_isTagged h)
  refine ⟨convertKey_stripTags sigil value, convert_stripTags sigil value, ?_, htagged⟩
  by_cases h : value.isTagged
  · rw [htagged h, rootTree_eq_invalidRoot_iff, isRoot_stripTags]
    simp [h]
  · exact iff_of_true (rootTree_stripTags sigil origin h) fun hboth ↦ h hboth.1

/-- A mapping with tags on a key, on the value under it and inside that value. -/
def taggedInside : Yaml.Value :=
  .mapping [(.tagged "!k" (.string "a"), .tagged "!v" (.tagged "!w" (.sequence
    [.tagged "!i" .null, .mapping [(.tagged "!k" .null, .bool true)]])))]

/-- Tags inside a root make no difference. -/
theorem outcome_stripTags_taggedInside :
    rootTree '≈' ⟨"app.yaml"⟩ taggedInside
      = .ok [(.quoted "a", .tree [(.quoted "0", .scalar .null),
          (.quoted "1", .tree [(.quoted "", .scalar (.bool true))])])] := by
  obtain ⟨-, -, hroot, -⟩ := outcome_stripTags '≈' ⟨"app.yaml"⟩ taggedInside
  rw [← hroot.mpr (by decide)]
  decide +kernel

/-- A mapping is refused for the tag in front of it. -/
theorem rootTree_ne_stripTags_taggedMapping :
    rootTree '≈' ⟨"app.yaml"⟩
        (.tagged "!app" (.mapping [(.string "a", .number (.unsigned 1))]))
        = .error (.invalidRoot ⟨"app.yaml"⟩) ∧
      rootTree '≈' ⟨"app.yaml"⟩
        (Yaml.Value.tagged "!app" (.mapping [(.string "a", .number (.unsigned 1))])).stripTags
        = .ok [(.quoted "a", .scalar (.integer 1))] := by
  decide +kernel

end Document

end LayeredConfig
