import LayeredConfig.Yaml.Value

/-!
# How the text of a number begins

The text of a number that stands in a key begins with a digit, a minus sign or, for a number that is
not finite, a dot.
-/

namespace LayeredConfig

/-- Decimal digits begin with a digit. -/
theorem exists_isDigit_toDigits (n : Nat) :
    ∃ c rest, Nat.toDigits 10 n = c :: rest ∧ c.isDigit = true := by
  cases hd : Nat.toDigits 10 n with
  | nil => exact absurd hd Nat.toDigits_ne_nil
  | cons c rest =>
    exact ⟨c, rest, rfl, Nat.isDigit_of_mem_toDigits (by decide) (by decide)
      (hd ▸ List.mem_cons_self)⟩

private theorem Binary64.Layout.exists_isDigit_magnitude (layout : Layout) (d : Decimal) :
    ∃ c rest, layout.magnitude d = c :: rest ∧ c.isDigit = true := by
  obtain ⟨c, rest, hdigits, hc⟩ := exists_isDigit_toDigits d.digits
  simp only [magnitude, hdigits]
  split
  · exact ⟨'0', _, rfl, by decide⟩
  split
  · next hpoint =>
    split
    · exact ⟨c, _, rfl, hc⟩
    · have hpositive : ∃ m, (((c :: rest).length : Int) + d.exponent).toNat = m + 1 :=
        ⟨(((c :: rest).length : Int) + d.exponent).toNat - 1, by omega⟩
      obtain ⟨m, hm⟩ := hpositive
      rw [hm, List.take_succ_cons]
      exact ⟨c, _, rfl, hc⟩
  split
  · exact ⟨'0', _, rfl, by decide⟩
  · cases rest with
    | nil => exact ⟨c, _, rfl, hc⟩
    | cons second more => exact ⟨c, _, rfl, hc⟩

namespace Yaml.Number

/-- The characters that the text of a number can begin with. -/
def Lead (c : Char) : Prop := c.isDigit = true ∨ c = '-' ∨ c = '.'

/-- The text of a natural number begins with a digit. -/
theorem lead_natural (n : Nat) : ∃ c, (toString n).toList.head? = some c ∧ Lead c := by
  obtain ⟨c, rest, hdigits, hc⟩ := exists_isDigit_toDigits n
  exact ⟨c, by rw [Nat.toString_eq_repr, Nat.toList_repr, hdigits, List.head?_cons], .inl hc⟩

private theorem lead_integer (n : Int) : ∃ c, (toString n).toList.head? = some c ∧ Lead c := by
  cases n with
  | ofNat n => exact lead_natural n
  | negSucc n => exact ⟨'-', by rw [Int.toString_eq_repr]; simp [Int.repr], .inr (.inl rfl)⟩

/-- The text of a number begins with a digit, a minus sign or a dot. -/
theorem lead_text (n : Number) : ∃ c, n.text.toList.head? = some c ∧ Lead c := by
  cases n with
  | unsigned n => exact lead_natural n.toNat
  | negative n => exact lead_integer n.toInt
  | float x =>
    rw [text]
    split
    · exact ⟨'.', rfl, .inr (.inr rfl)⟩
    split
    · split
      · exact ⟨'-', rfl, .inr (.inl rfl)⟩
      · exact ⟨'.', rfl, .inr (.inr rfl)⟩
    · rw [String.toList_ofList, Binary64.Layout.write]
      split
      · exact ⟨'-', rfl, .inr (.inl rfl)⟩
      · obtain ⟨c, rest, hmagnitude, hc⟩ :=
          Binary64.Layout.key.exists_isDigit_magnitude (x.shortest Binary64.Layout.key.tie)
        exact ⟨c, by rw [hmagnitude]; rfl, .inl hc⟩

end Yaml.Number

end LayeredConfig
