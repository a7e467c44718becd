import LayeredConfig.Proofs.Entries.Alteration
import Mathlib.Data.List.Induction
import Mathlib.Data.List.Perm.Subperm

/-!
# Building entries from pairs

Pairs that are inserted one after the other leave one entry for each key. A key has the place of
its first pair and the value of its last one, and renaming keys without confusing any two of them
renames the entries.
-/

namespace LayeredConfig.Entries

variable {α : Type}

/-- The last pair is inserted into what the pairs before it build. -/
theorem ofList_concat (pairs : List (Text × α)) (pair : Text × α) :
    ofList (pairs ++ [pair]) = insert pair.1 pair.2 (ofList pairs) := by
  rw [ofList, List.foldl_append]
  rfl

/-- What is built from pairs has no key twice. -/
theorem distinct_ofList (pairs : List (Text × α)) : Distinct (ofList pairs) := by
  induction pairs using List.reverseRecOn with
  | nil => exact List.nodup_nil
  | append_singleton pairs pair ih =>
    rw [ofList_concat]
    exact distinct_alter pair.1 _ ih

/-- The keys are those of the pairs, each where it occurs first. -/
theorem keys_ofList (pairs : List (Text × α)) : keys (ofList pairs) = (keys pairs).eraseDups := by
  induction pairs using List.reverseRecOn with
  | nil => rfl
  | append_singleton pairs pair ih =>
    have hkeys : keys (insert pair.1 pair.2 (ofList pairs))
        = if pair.1 ∈ (keys pairs).eraseDups then (keys pairs).eraseDups
          else (keys pairs).eraseDups ++ [pair.1] := ih ▸ keys_alter pair.1 _ (ofList pairs)
    have hsplit : keys (pairs ++ [pair]) = keys pairs ++ [pair.1] := List.map_append
    rw [ofList_concat, hkeys, hsplit, List.eraseDups_append]
    by_cases hmem : pair.1 ∈ keys pairs
    · simp [List.removeAll, hmem]
    · simp [List.removeAll, List.eraseDups_cons, hmem]

private theorem find?_eq_some_iff (key : Text) (value : α) (entries : Entries α) :
    find? key entries = some value ↔
      ∃ before after, entries = before ++ (key, value) :: after ∧ key ∉ keys before := by
  constructor
  · intro h
    induction entries with
    | nil => exact absurd h nofun
    | cons entry rest ih =>
      rcases entry with ⟨k, v⟩
      by_cases hk : k = key
      · subst hk
        rw [find?, if_pos rfl, Option.some.injEq] at h
        exact ⟨[], rest, by rw [h, List.nil_append], List.not_mem_nil⟩
      · rw [find?, if_neg hk] at h
        obtain ⟨before, after, rfl, hnew⟩ := ih h
        exact ⟨(k, v) :: before, after, rfl, List.not_mem_cons_of_ne_of_not_mem (Ne.symm hk) hnew⟩
  · rintro ⟨before, after, rfl, hnew⟩
    induction before with
    | nil => simp [find?]
    | cons entry before ih =>
      rw [keys, List.map_cons, List.mem_cons, not_or] at hnew
      rw [List.cons_append, find?, if_neg (Ne.symm hnew.1)]
      exact ih hnew.2

private theorem find?_ofList (key : Text) (pairs : List (Text × α)) :
    find? key (ofList pairs) = find? key pairs.reverse := by
  induction pairs using List.reverseRecOn with
  | nil => rfl
  | append_singleton pairs pair ih =>
    rw [ofList_concat, List.reverse_concat, insert]
    by_cases hk : pair.1 = key
    · subst hk
      rw [find?_alter_self, find?, if_pos rfl]
    · rw [find?_alter_of_ne _ _ (Ne.symm hk), ih, find?, if_neg hk]

/-- The entries are the pairs behind which their key does not occur again. -/
theorem mem_ofList_iff (key : Text) (value : α) (pairs : List (Text × α)) :
    (key, value) ∈ ofList pairs ↔
      ∃ before after, pairs = before ++ (key, value) :: after ∧ key ∉ keys after := by
  rw [← find?_eq_some_iff_mem (distinct_ofList pairs), find?_ofList, find?_eq_some_iff]
  -- The pairs in front of an entry of the reversed list are those behind it in the list itself.
  constructor
  · rintro ⟨before, after, hsplit, hnew⟩
    refine ⟨after.reverse, before.reverse, ?_, ?_⟩
    · rw [← List.reverse_reverse pairs, hsplit]
      simp
    · simpa [keys] using hnew
  · rintro ⟨before, after, rfl, hnew⟩
    refine ⟨after.reverse, before.reverse, by simp, ?_⟩
    simpa [keys] using hnew

/-- What is built from pairs is told by its keys and its entries. -/
theorem eq_ofList_iff {entries pairs : Entries α} :
    entries = ofList pairs ↔
      keys entries = (keys pairs).eraseDups ∧
        ∀ key value, (key, value) ∈ entries ↔
          ∃ before after, pairs = before ++ (key, value) :: after ∧ key ∉ keys after := by
  constructor
  · rintro rfl
    exact ⟨keys_ofList pairs, fun key value ↦ mem_ofList_iff key value pairs⟩
  · rintro ⟨hkeys, hlast⟩
    have hsame : keys entries = keys (ofList pairs) := by rw [hkeys, keys_ofList]
    have hdistinct : Distinct entries := by
      rw [Distinct, hsame]
      exact distinct_ofList pairs
    refine ext_of_find? hdistinct hsame fun key ↦ Option.ext fun value ↦ ?_
    rw [find?_eq_some_iff_mem hdistinct, find?_eq_some_iff_mem (distinct_ofList pairs), hlast,
      mem_ofList_iff]

/-- There are no more entries than pairs. -/
theorem length_ofList_le (pairs : List (Text × α)) : (ofList pairs).length ≤ pairs.length := by
  have hsubset : keys (ofList pairs) ⊆ keys pairs := by
    intro key hkey
    rw [keys_ofList] at hkey
    exact List.mem_eraseDups.mp hkey
  have hlength := (List.subperm_of_subset (distinct_ofList pairs) hsubset).length_le
  rwa [keys, keys, List.length_map, List.length_map] at hlength

/-! ### Renaming keys -/

private theorem alter_map {rename : Text → Text} (hrename : Function.Injective rename) (key : Text)
    (change : Option α → α) (entries : Entries α) :
    alter (rename key) change (entries.map (Prod.map rename id))
      = (alter key change entries).map (Prod.map rename id) := by
  induction entries with
  | nil => rfl
  | cons entry rest ih =>
    rcases entry with ⟨k, value⟩
    rw [List.map_cons, Prod.map_apply]
    by_cases hk : k = key
    · simp [alter, hk]
    · simp [alter, hk, hrename.ne hk, ih]

/-- Pairs with renamed keys build renamed entries. -/
theorem ofList_map {rename : Text → Text} (hrename : Function.Injective rename)
    (pairs : List (Text × α)) :
    ofList (pairs.map (Prod.map rename id)) = (ofList pairs).map (Prod.map rename id) := by
  induction pairs using List.reverseRecOn with
  | nil => rfl
  | append_singleton pairs pair ih =>
    rw [List.map_append, List.map_singleton, ofList_concat, ofList_concat, ih]
    exact alter_map hrename pair.1 _ (ofList pairs)

end LayeredConfig.Entries
