import Mathlib.Data.List.Forall2

/-!
# Results

What is done with the result of a stage when it succeeds has no part in its failures. A list of
stages succeeds with the results of all of them, or fails as one of them does.
-/

namespace LayeredConfig

variable {α β ε : Type}

/-- A mapped result fails as it failed before. -/
theorem map_eq_error_iff {result : Except ε α} {f : α → β} {error : ε} :
    result.map f = .error error ↔ result = .error error := by
  cases result <;> simp [Except.map]

/-- A mapped result succeeds as it succeeded before. -/
theorem map_eq_ok_iff {result : Except ε α} {f : α → β} {value : β} :
    result.map f = .ok value ↔ ∃ inner, result = .ok inner ∧ f inner = value := by
  cases result <;> simp [Except.map]

/-- Two results agree after mapping when both fail alike or their values agree. -/
theorem map_eq_map_iff {γ : Type} {result : Except ε α} {other : Except ε β} {f : α → γ}
    {g : β → γ} :
    result.map f = other.map g ↔
      (∃ error, result = .error error ∧ other = .error error) ∨
        ∃ value value', result = .ok value ∧ other = .ok value' ∧ f value = g value' := by
  cases result <;> cases other <;> simp [Except.map, eq_comm]

/-- A result whose failure is reworded succeeds as it succeeded before. -/
theorem mapError_eq_ok_iff {ε' : Type} {result : Except ε α} {f : ε → ε'} {value : α} :
    result.mapError f = .ok value ↔ result = .ok value := by
  cases result with
  | error e => exact ⟨nofun, nofun⟩
  | ok inner => exact ⟨fun h ↦ Except.ok.inj h ▸ rfl, fun h ↦ Except.ok.inj h ▸ rfl⟩

/-- A result whose failure is reworded fails in the new words. -/
theorem mapError_eq_error_iff {ε' : Type} {result : Except ε α} {f : ε → ε'} {error : ε'} :
    result.mapError f = .error error ↔ ∃ found, result = .error found ∧ f found = error := by
  cases result with
  | error found => simp [Except.mapError]
  | ok value => simp [Except.mapError]

/-- Failures can be reworded before or after values are mapped. -/
theorem map_mapError {ε' : Type} (result : Except ε α) (f : ε → ε') (g : α → β) :
    (result.mapError f).map g = (result.map g).mapError f := by
  cases result <;> rfl

/-- Where every item has a result, a list has them all in order. -/
theorem mapM_eq_ok {f : α → Except ε β} {g : α → β} {list : List α}
    (h : ∀ item ∈ list, f item = .ok (g item)) : list.mapM f = .ok (list.map g) := by
  induction list with
  | nil => rfl
  | cons first rest ih =>
    obtain ⟨hfirst, hrest⟩ := List.forall_mem_cons.mp h
    rw [List.mapM_cons, hfirst, ih hrest]
    rfl

/-- Where every item has the same result, so has a list. -/
theorem mapM_congr_of_forall_mem {f g : α → Except ε β} {list : List α}
    (h : ∀ item ∈ list, f item = g item) : list.mapM f = list.mapM g := by
  induction list with
  | nil => rfl
  | cons first rest ih =>
    obtain ⟨hfirst, hrest⟩ := List.forall_mem_cons.mp h
    rw [List.mapM_cons, List.mapM_cons, hfirst, ih hrest]

/-- Where every item is mapped alike, so is a list. -/
theorem mapM_map_congr {γ δ : Type} {f : α → Except ε β} {g : α → Except ε γ} {p : β → δ}
    {q : γ → δ} (h : ∀ item, (f item).map p = (g item).map q) (list : List α) :
    (list.mapM f).map (List.map p) = (list.mapM g).map (List.map q) := by
  induction list with
  | nil => rfl
  | cons first rest ih =>
    rw [List.mapM_cons, List.mapM_cons]
    rcases map_eq_map_iff.mp (h first) with ⟨error, hf, hg⟩ | ⟨value, value', hf, hg, hvalue⟩
    · rw [hf, hg]
      rfl
    rcases map_eq_map_iff.mp ih with ⟨error, hfs, hgs⟩ | ⟨values, values', hfs, hgs, hvalues⟩
    · rw [hf, hg, hfs, hgs]
      rfl
    · rw [hf, hg, hfs, hgs]
      refine congrArg Except.ok ?_
      rw [List.map_cons, List.map_cons, hvalue, hvalues]

/-- A list has results when its first item and the items behind it have. -/
theorem mapM_cons_eq_ok_iff {f : α → Except ε β} {first : α} {rest : List α} {values : List β} :
    (first :: rest).mapM f = .ok values ↔
      ∃ value others, f first = .ok value ∧ rest.mapM f = .ok others ∧
        value :: others = values := by
  rw [List.mapM_cons]
  cases f first with
  | error found => simp [bind, Except.bind]
  | ok value =>
    cases rest.mapM f with
    | error found => simp [bind, Except.bind]
    | ok others => simp [bind, Except.bind, pure, Except.pure]

/-- What holds of the result of each item holds of all results of a list. -/
theorem forall_mem_of_mapM_eq_ok {Q : β → Prop} {f : α → Except ε β}
    (hf : ∀ item value, f item = .ok value → Q value) {list : List α} {values : List β}
    (h : list.mapM f = .ok values) : ∀ value ∈ values, Q value := by
  induction list generalizing values with
  | nil =>
    cases h
    simp
  | cons first rest ih =>
    obtain ⟨value, others, hfirst, hrest, rfl⟩ := mapM_cons_eq_ok_iff.mp h
    exact List.forall_mem_cons.mpr ⟨hf first value hfirst, ih hrest⟩

/-- Where an item can have one result only, so can a list. -/
theorem eq_map_of_mapM_eq_ok {f : α → Except ε β} {g : α → β}
    (hf : ∀ item value, f item = .ok value → value = g item) {list : List α} {values : List β}
    (h : list.mapM f = .ok values) : values = list.map g := by
  induction list generalizing values with
  | nil =>
    cases h
    rfl
  | cons first rest ih =>
    obtain ⟨value, others, hfirst, hrest, rfl⟩ := mapM_cons_eq_ok_iff.mp h
    rw [List.map_cons, hf first value hfirst, ih hrest]

/-- Where a relation says which result each item has, it says so of lists. -/
theorem mapM_eq_ok_iff_forall₂ {f : α → Except ε β} {R : α → β → Prop} {list : List α}
    (h : ∀ item ∈ list, ∀ value, f item = .ok value ↔ R item value) {values : List β} :
    list.mapM f = .ok values ↔ List.Forall₂ R list values := by
  induction list generalizing values with
  | nil =>
    rw [List.forall₂_nil_left_iff]
    exact ⟨fun hnil ↦ (Except.ok.inj hnil).symm, fun hnil ↦ congrArg Except.ok hnil.symm⟩
  | cons first rest ih =>
    obtain ⟨hfirst, hrest⟩ := List.forall_mem_cons.mp h
    rw [mapM_cons_eq_ok_iff, List.forall₂_cons_left_iff]
    constructor
    · rintro ⟨value, others, hvalue, hothers, rfl⟩
      exact ⟨value, others, (hfirst value).mp hvalue, (ih hrest).mp hothers, rfl⟩
    · rintro ⟨value, others, hvalue, hothers, rfl⟩
      exact ⟨value, others, (hfirst value).mpr hvalue, (ih hrest).mpr hothers, rfl⟩

/-- Two relations hold along two lists together when each of them does. -/
theorem forall₂_and {R S : α → β → Prop} {list : List α} {values : List β} :
    List.Forall₂ (fun item value ↦ R item value ∧ S item value) list values ↔
      List.Forall₂ R list values ∧ List.Forall₂ S list values := by
  constructor
  · intro h
    exact ⟨h.imp fun _ _ hboth ↦ hboth.1, h.imp fun _ _ hboth ↦ hboth.2⟩
  · rintro ⟨hfirst, hsecond⟩
    induction hfirst with
    | nil => exact .nil
    | cons hR _ ih =>
      cases hsecond with
      | cons hS hrest => exact .cons ⟨hR, hS⟩ (ih hrest)

/-- Two lists are mapped alike when related items are. -/
theorem map_eq_map_of_forall₂ {γ : Type} {R : α → β → Prop} {f : α → γ} {g : β → γ}
    {list : List α} {values : List β} (h : List.Forall₂ R list values)
    (hmap : ∀ item ∈ list, ∀ value, R item value → f item = g value) :
    list.map f = values.map g := by
  induction h with
  | nil => rfl
  | cons hfirst _ ih =>
    obtain ⟨hhead, htail⟩ := List.forall_mem_cons.mp hmap
    rw [List.map_cons, List.map_cons, hhead _ hfirst, ih htail]

/-- A list fails as its first item does or, behind a first item with a result, as the rest does. -/
theorem mapM_cons_eq_error_iff {f : α → Except ε β} {first : α} {rest : List α} {error : ε} :
    (first :: rest).mapM f = .error error ↔
      f first = .error error ∨ (∃ value, f first = .ok value) ∧ rest.mapM f = .error error := by
  rw [List.mapM_cons]
  cases f first with
  | error found => simp [bind, Except.bind]
  | ok value =>
    cases rest.mapM f with
    | error found => simp [bind, Except.bind]
    | ok others => simp [bind, Except.bind, pure, Except.pure]

/-- A list that lacks results has an item that fails as it does. -/
theorem exists_of_mapM_eq_error {f : α → Except ε β} {error : ε} {list : List α}
    (h : list.mapM f = .error error) : ∃ item ∈ list, f item = .error error := by
  induction list with
  | nil => cases h
  | cons first rest ih =>
    rcases mapM_cons_eq_error_iff.mp h with hfirst | ⟨-, hrest⟩
    · exact ⟨first, List.mem_cons_self, hfirst⟩
    · obtain ⟨item, hitem, hfails⟩ := ih hrest
      exact ⟨item, List.mem_cons_of_mem _ hitem, hfails⟩

/-- A list fails when an item does, whichever failure it is. -/
theorem mapM_fails_iff {f : α → Except ε β} {list : List α} :
    (∃ error, list.mapM f = .error error) ↔ ∃ item ∈ list, ∃ error, f item = .error error := by
  constructor
  · rintro ⟨error, h⟩
    obtain ⟨item, hitem, hfails⟩ := exists_of_mapM_eq_error h
    exact ⟨item, hitem, error, hfails⟩
  · rintro ⟨item, hitem, error, hfails⟩
    induction list with
    | nil => cases hitem
    | cons first rest ih =>
      cases hfirst : f first with
      | error found => exact ⟨found, mapM_cons_eq_error_iff.mpr (.inl hfirst)⟩
      | ok value =>
        rcases List.mem_cons.mp hitem with rfl | hrest
        · rw [hfails] at hfirst
          cases hfirst
        · obtain ⟨found, hfound⟩ := ih hrest
          exact ⟨found, mapM_cons_eq_error_iff.mpr (.inr ⟨⟨value, hfirst⟩, hfound⟩)⟩

end LayeredConfig
