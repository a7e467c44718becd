import LayeredConfig.Text

/-!
# Ordered entries

Entries keep the order in which their keys were first set. Setting a key again changes its value in
place; a new key goes to the end. Every change of a tree is one use of `alter`.
-/

namespace LayeredConfig

/-- Keyed values in the order of first insertion. -/
abbrev Entries (α : Type) := List (Text × α)

namespace Entries

variable {α : Type}

/-- The keys in order. -/
def keys (entries : Entries α) : List Text := entries.map Prod.fst

/-- The value stored under a key. -/
def find? (key : Text) : Entries α → Option α
  | [] => none
  | (k, v) :: rest => if k = key then some v else find? key rest

/-- Replaces the value under a key by a function of the old one; a new key is appended. -/
def alter (key : Text) (change : Option α → α) : Entries α → Entries α
  | [] => [(key, change none)]
  | (k, v) :: rest =>
    if k = key then (k, change (some v)) :: rest else (k, v) :: alter key change rest

/-- Stores a value under a key, keeping the position of a key that is present. -/
def insert (key : Text) (value : α) (entries : Entries α) : Entries α :=
  alter key (fun _ ↦ value) entries

/-- Builds entries by inserting the pairs in order. -/
def ofList (pairs : List (Text × α)) : Entries α :=
  pairs.foldl (fun entries pair ↦ insert pair.1 pair.2 entries) []

/-- No key occurs twice. -/
def Distinct (entries : Entries α) : Prop := (keys entries).Nodup

/-- The altered key holds the changed value. -/
theorem find?_alter_self (key : Text) (change : Option α → α) (entries : Entries α) :
    find? key (alter key change entries) = some (change (find? key entries)) := by
  induction entries with
  | nil => simp [alter, find?]
  | cons entry rest ih =>
    by_cases h : entry.1 = key
    · simp [alter, find?, h]
    · simp [alter, find?, h, ih]

/-- Altering one key leaves every other key alone. -/
theorem find?_alter_of_ne {key other : Text} (change : Option α → α) (entries : Entries α)
    (h : other ≠ key) : find? other (alter key change entries) = find? other entries := by
  induction entries with
  | nil => simp [alter, find?, Ne.symm h]
  | cons entry rest ih =>
    by_cases he : entry.1 = key
    · simp [alter, find?, he, Ne.symm h]
    · by_cases ho : entry.1 = other
      · subst ho
        simp [alter, find?, he]
      · simp [alter, find?, he, ho, ih]

/-- Altering keeps the keys, or appends the one that was missing. -/
theorem keys_alter (key : Text) (change : Option α → α) (entries : Entries α) :
    keys (alter key change entries)
      = if key ∈ keys entries then keys entries else keys entries ++ [key] := by
  induction entries with
  | nil => simp [alter, keys]
  | cons entry rest ih =>
    by_cases h : entry.1 = key
    · simp [alter, keys, h]
    · have hne : key ≠ entry.1 := Ne.symm h
      simp only [keys] at ih
      by_cases hm : key ∈ List.map Prod.fst rest
      · simp [alter, keys, h, hne, ih, hm]
      · simp [alter, keys, h, hne, ih, hm]

/-- Altering keeps keys distinct. -/
theorem distinct_alter (key : Text) (change : Option α → α) {entries : Entries α}
    (h : Distinct entries) : Distinct (alter key change entries) := by
  unfold Distinct at h ⊢
  rw [keys_alter]
  split
  · exact h
  · next hm =>
    rw [List.nodup_append]
    refine ⟨h, by simp, ?_⟩
    intro a ha b hb hab
    rw [List.mem_singleton] at hb
    exact hm (hb ▸ hab ▸ ha)

end Entries

end LayeredConfig
