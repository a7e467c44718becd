import LayeredConfig.Proofs.Results

/-!
# The first failure

Documents are found, signed and parsed in order, and the first that cannot be is the one that is
reported. `FirstWith` says which item of a list that is, together with the items before it.
-/

namespace LayeredConfig

variable {α β ε : Type}

/-- An item of a list has a property, and the items before it, which are given, do not. -/
structure FirstWith (P : α → Prop) (list before : List α) (item : α) : Prop where
  split : ∃ after, list = before ++ item :: after
  earlier : ∀ other ∈ before, ¬ P other
  holds : P item

namespace FirstWith

variable {P : α → Prop} {first item : α} {rest before : List α}

/-- The first item of a list may be the one. -/
theorem head (h : P first) : FirstWith P (first :: rest) [] first :=
  ⟨⟨rest, rfl⟩, by simp, h⟩

/-- When the first item is not the one, it is before the one. -/
theorem cons (hn : ¬ P first) (h : FirstWith P rest before item) :
    FirstWith P (first :: rest) (first :: before) item := by
  obtain ⟨after, hs⟩ := h.split
  exact ⟨⟨after, by rw [hs, List.cons_append]⟩, List.forall_mem_cons.mpr ⟨hn, h.earlier⟩, h.holds⟩

/-- An empty list has no first item with a property. -/
theorem not_nil : ¬ FirstWith P [] before item := by
  rintro ⟨⟨after, hs⟩, -, -⟩
  simp at hs

/-- The item is the first one of the list or the first with the property among the others. -/
theorem cons_iff :
    FirstWith P (first :: rest) before item ↔
      (P first ∧ before = [] ∧ item = first) ∨
        ¬ P first ∧ ∃ between, before = first :: between ∧ FirstWith P rest between item := by
  constructor
  · rintro ⟨⟨after, hs⟩, hearlier, hitem⟩
    cases before with
    | nil =>
      obtain ⟨rfl, -⟩ := List.cons.inj hs
      exact .inl ⟨hitem, rfl, rfl⟩
    | cons other between =>
      obtain ⟨rfl, hrest⟩ := List.cons.inj hs
      obtain ⟨hfirst, hbetween⟩ := List.forall_mem_cons.mp hearlier
      exact .inr ⟨hfirst, between, rfl, ⟨after, hrest⟩, hbetween, hitem⟩
  · rintro (⟨h, rfl, rfl⟩ | ⟨hn, between, rfl, h⟩)
    · exact .head h
    · exact .cons hn h

/-- A list has a first item with a property, or none of its items has it. -/
theorem exists_or_forall_not (P : α → Prop) (list : List α) :
    (∃ before item, FirstWith P list before item) ∨ ∀ item ∈ list, ¬ P item := by
  induction list with
  | nil => simp
  | cons first rest ih =>
    by_cases hfirst : P first
    · exact .inl ⟨[], first, .head hfirst⟩
    · rcases ih with ⟨before, item, hitem⟩ | hnone
      · exact .inl ⟨first :: before, item, .cons hfirst hitem⟩
      · exact .inr (List.forall_mem_cons.mpr ⟨hfirst, hnone⟩)

/-- Leaving out items without the property does not change which one is the first. -/
theorem of_filter {list : List α} {keep : α → Bool} (hkeep : ∀ other, P other → keep other = true)
    (h : FirstWith P (list.filter keep) before item) :
    ∃ between, FirstWith P list between item := by
  induction list generalizing before with
  | nil => exact absurd h not_nil
  | cons first rest ih =>
    by_cases hfirst : P first
    · rw [List.filter_cons_of_pos (hkeep first hfirst)] at h
      rcases cons_iff.mp h with ⟨-, -, rfl⟩ | ⟨hn, -⟩
      · exact ⟨[], .head hfirst⟩
      · exact absurd hfirst hn
    · have hrest : ∃ before, FirstWith P (rest.filter keep) before item := by
        rw [List.filter_cons] at h
        split at h
        · rcases cons_iff.mp h with ⟨hp, -⟩ | ⟨-, between, -, hitem⟩
          · exact absurd hp hfirst
          · exact ⟨between, hitem⟩
        · exact ⟨before, h⟩
      obtain ⟨before, hrest⟩ := hrest
      obtain ⟨between, hitem⟩ := ih hrest
      exact ⟨first :: between, .cons hfirst hitem⟩

/-- Where all other items have results, a list fails as the first item with the property does. -/
theorem mapM_eq_error {f : α → Except ε β} {error : ε} {list : List α}
    (hothers : ∀ other, ¬ P other → ∃ value, f other = .ok value)
    (h : FirstWith P list before item) (hitem : f item = .error error) :
    list.mapM f = .error error := by
  induction list generalizing before with
  | nil => exact absurd h not_nil
  | cons first rest ih =>
    rcases cons_iff.mp h with ⟨-, -, rfl⟩ | ⟨hn, between, -, hrest⟩
    · exact mapM_cons_eq_error_iff.mpr (.inl hitem)
    · exact mapM_cons_eq_error_iff.mpr (.inr ⟨hothers first hn, ih hrest⟩)

/-- A stage that fails at the head of a list or else where it fails on the rest fails with what it
blames on the first item with a property. -/
theorem iff_of_cons {blame : α → ε} (fails : List α → ε → Prop) (nil : ∀ error, ¬ fails [] error)
    (cons : ∀ item rest error,
      fails (item :: rest) error ↔ P item ∧ error = blame item ∨ ¬ P item ∧ fails rest error)
    (list : List α) (error : ε) :
    fails list error ↔ ∃ before item, FirstWith P list before item ∧ error = blame item := by
  induction list with
  | nil => simp [nil, not_nil]
  | cons first rest ih =>
    rw [cons, ih]
    constructor
    · rintro (⟨hfirst, rfl⟩ | ⟨hn, before, item, hitem, rfl⟩)
      · exact ⟨[], first, .head hfirst, rfl⟩
      · exact ⟨first :: before, item, .cons hn hitem, rfl⟩
    · rintro ⟨before, item, hitem, rfl⟩
      rcases cons_iff.mp hitem with ⟨hfirst, -, rfl⟩ | ⟨hn, between, -, hitem⟩
      · exact .inl ⟨hfirst, rfl⟩
      · exact .inr ⟨hn, between, item, hitem, rfl⟩

end FirstWith

end LayeredConfig
