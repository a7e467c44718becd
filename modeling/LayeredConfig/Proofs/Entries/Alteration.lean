import LayeredConfig.Entries

/-!
# Repeated alterations

Two alterations of one key are one alteration, and alterations of two keys commute once one of the
keys is present. Altering an absent key appends it, so pairs with distinct keys are kept as they are
when they are inserted one after the other.
-/

namespace LayeredConfig.Entries

variable {α : Type}

/-- Whether no key occurs twice can be computed. -/
instance (entries : Entries α) : Decidable (Distinct entries) :=
  inferInstanceAs (Decidable (keys entries).Nodup)

/-- Entries with distinct keys are distinct. -/
theorem Distinct.nodup {entries : Entries α} (h : Distinct entries) : entries.Nodup :=
  (List.pairwise_map.mp h).imp fun hne he ↦ hne (congrArg Prod.fst he)

/-- Exactly the keys that are present are found. -/
theorem isSome_find?_iff (key : Text) (entries : Entries α) :
    (find? key entries).isSome ↔ key ∈ keys entries := by
  induction entries with
  | nil => simp [find?, keys]
  | cons entry rest ih =>
    by_cases h : entry.1 = key
    · simp [find?, keys, h]
    · simpa [find?, keys, h, Ne.symm h] using ih

/-- A key that is absent is not found. -/
theorem find?_eq_none_iff (key : Text) (entries : Entries α) :
    find? key entries = none ↔ key ∉ keys entries := by
  rw [← isSome_find?_iff, Bool.not_eq_true, Option.isSome_eq_false_iff, Option.isNone_iff_eq_none]

/-- What is found under a key is an entry. -/
theorem mem_of_find? {key : Text} {value : α} {entries : Entries α}
    (h : find? key entries = some value) : (key, value) ∈ entries := by
  induction entries with
  | nil => simp [find?] at h
  | cons entry rest ih =>
    by_cases he : entry.1 = key
    · simp only [find?, he, ite_true, Option.some.injEq] at h
      rw [← he, ← h]
      exact List.mem_cons_self
    · simp only [find?, he, ite_false] at h
      exact List.mem_cons_of_mem _ (ih h)

private theorem find?_of_mem {key : Text} {value : α} {entries : Entries α} (hd : Distinct entries)
    (h : (key, value) ∈ entries) : find? key entries = some value := by
  induction entries with
  | nil => simp at h
  | cons entry rest ih =>
    obtain ⟨hnew, hrest⟩ := List.nodup_cons.mp hd
    rcases List.mem_cons.mp h with rfl | h
    · simp [find?]
    · have hne : entry.1 ≠ key := by
        intro he
        exact hnew (he ▸ List.mem_map_of_mem h)
      simpa [find?, hne] using ih hrest h

/-- Where keys are distinct, the entries are what is found. -/
theorem find?_eq_some_iff_mem {key : Text} {value : α} {entries : Entries α}
    (hd : Distinct entries) : find? key entries = some value ↔ (key, value) ∈ entries :=
  ⟨mem_of_find?, find?_of_mem hd⟩

/-- Entries with the same keys in the same order are the same when every key holds the same. -/
theorem ext_of_find? {entries other : Entries α} (h : Distinct entries)
    (hkeys : keys entries = keys other) (hfind : ∀ key, find? key entries = find? key other) :
    entries = other := by
  induction entries generalizing other with
  | nil => exact (List.map_eq_nil_iff.mp hkeys.symm).symm
  | cons entry rest ih =>
    cases other with
    | nil => cases hkeys
    | cons entry' rest' =>
      rcases entry with ⟨key, value⟩
      rcases entry' with ⟨key', value'⟩
      obtain ⟨rfl, hrest⟩ : key = key' ∧ keys rest = keys rest' := List.cons.inj hkeys
      obtain ⟨hnew, hdistinct⟩ : key ∉ keys rest ∧ Distinct rest := List.nodup_cons.mp h
      have hvalue : value = value' := by simpa [find?] using hfind key
      have hbehind : rest = rest' := by
        refine ih hdistinct hrest fun sought ↦ ?_
        by_cases hs : key = sought
        · -- behind its own entry the key occurs in neither list
          subst hs
          have hnew' : key ∉ keys rest' := hrest ▸ hnew
          rw [(find?_eq_none_iff _ _).mpr hnew, (find?_eq_none_iff _ _).mpr hnew']
        · simpa [find?, hs] using hfind sought
      rw [hvalue, hbehind]

/-- An altered tree holds the old entries and the changed one. -/
theorem mem_of_mem_alter {key : Text} {change : Option α → α} {entries : Entries α}
    {entry : Text × α} (h : entry ∈ alter key change entries) :
    entry ∈ entries ∨ entry = (key, change (find? key entries)) := by
  induction entries with
  | nil => exact Or.inr (List.mem_singleton.mp h)
  | cons first rest ih =>
    by_cases he : first.1 = key
    · simp only [alter, he, ite_true] at h
      rcases List.mem_cons.mp h with rfl | h
      · exact Or.inr (by simp [find?, he])
      · exact Or.inl (List.mem_cons_of_mem _ h)
    · simp only [alter, he, ite_false] at h
      rcases List.mem_cons.mp h with rfl | h
      · exact Or.inl List.mem_cons_self
      · simp only [find?, he, ite_false]
        exact (ih h).imp_left (List.mem_cons_of_mem _)

/-- The keys after an alteration are the old ones and the altered one. -/
theorem mem_keys_alter (key other : Text) (change : Option α → α) (entries : Entries α) :
    other ∈ keys (alter key change entries) ↔ other ∈ keys entries ∨ other = key := by
  rw [keys_alter]
  split
  · next h =>
    constructor
    · exact Or.inl
    · rintro (ho | rfl)
      · exact ho
      · exact h
  · rw [List.mem_append, List.mem_singleton]

/-- A property of the old keys and the altered one holds of all keys afterwards. -/
theorem forall_mem_keys_alter {Q : Text → Prop} {key : Text} (change : Option α → α)
    {entries : Entries α} (h : ∀ k ∈ keys entries, Q k) (hkey : Q key) :
    ∀ k ∈ keys (alter key change entries), Q k := by
  intro k hk
  rcases (mem_keys_alter _ _ _ _).mp hk with hk | rfl
  · exact h k hk
  · exact hkey

/-- Only the value that the key held matters to an alteration. -/
theorem alter_congr (key : Text) {change other : Option α → α} (entries : Entries α)
    (h : change (find? key entries) = other (find? key entries)) :
    alter key change entries = alter key other entries := by
  induction entries with
  | nil => simpa [alter, find?] using h
  | cons entry rest ih =>
    by_cases he : entry.1 = key
    · simpa [alter, find?, he] using h
    · simp only [find?, he, ite_false] at h
      simp [alter, he, ih h]

/-- Two alterations of one key are one alteration. -/
theorem alter_alter (key : Text) (first second : Option α → α) (entries : Entries α) :
    alter key second (alter key first entries)
      = alter key (fun old ↦ second (some (first old))) entries := by
  induction entries with
  | nil => simp [alter]
  | cons entry rest ih =>
    by_cases h : entry.1 = key
    · simp [alter, h]
    · simp [alter, h, ih]

/-- Alterations of two keys commute when one of the keys is present. -/
theorem alter_comm {key other : Text} (change change' : Option α → α) (entries : Entries α)
    (hne : other ≠ key) (hmem : key ∈ keys entries) :
    alter key change (alter other change' entries)
      = alter other change' (alter key change entries) := by
  induction entries with
  | nil => simp [keys] at hmem
  | cons entry rest ih =>
    by_cases hk : entry.1 = key
    · simp [alter, hk, Ne.symm hne]
    · have hrest : key ∈ keys rest := by simpa [keys, Ne.symm hk] using hmem
      by_cases ho : entry.1 = other
      · simp [alter, ho, hne]
      · simp [alter, hk, ho, ih hrest]

/-- Altering an absent key appends it. -/
theorem alter_of_not_mem (key : Text) (change : Option α → α) {entries : Entries α}
    (h : key ∉ keys entries) : alter key change entries = entries ++ [(key, change none)] := by
  induction entries with
  | nil => rfl
  | cons entry rest ih =>
    simp only [keys, List.map_cons, List.mem_cons, not_or] at h
    simp [alter, Ne.symm h.1, ih h.2]

/-- Inserting an absent key appends it. -/
theorem insert_of_not_mem (key : Text) (value : α) {entries : Entries α}
    (h : key ∉ keys entries) : insert key value entries = entries ++ [(key, value)] :=
  alter_of_not_mem key _ h

/-- Alteration never leaves a tree empty. -/
theorem alter_ne_nil (key : Text) (change : Option α → α) (entries : Entries α) :
    alter key change entries ≠ [] := by
  cases entries with
  | nil => simp [alter]
  | cons entry rest =>
    simp only [alter]
    split <;> simp

/-- Where keys are distinct, none of the entries in front has the key of an entry. -/
theorem not_mem_keys_of_distinct_append {entries rest : Entries α} {pair : Text × α}
    (h : Distinct (entries ++ pair :: rest)) : pair.1 ∉ keys entries := by
  simp only [Distinct, keys, List.map_append, List.map_cons, List.nodup_append] at h
  intro hm
  exact h.2.2 pair.1 hm pair.1 List.mem_cons_self rfl

private theorem foldl_insert_of_distinct (pairs entries : Entries α)
    (h : Distinct (entries ++ pairs)) :
    pairs.foldl (fun entries pair ↦ insert pair.1 pair.2 entries) entries = entries ++ pairs := by
  induction pairs generalizing entries with
  | nil => simp
  | cons pair rest ih =>
    rw [List.foldl_cons, insert_of_not_mem _ _ (not_mem_keys_of_distinct_append h), ih]
    · simp
    · simpa using h

/-- Pairs with distinct keys are entries as they stand. -/
theorem ofList_of_distinct {pairs : Entries α} (h : Distinct pairs) : ofList pairs = pairs :=
  foldl_insert_of_distinct pairs [] h

end LayeredConfig.Entries
