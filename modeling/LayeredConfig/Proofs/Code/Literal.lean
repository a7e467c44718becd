import LayeredConfig.Code.Quoting

/-!
# Reading string literals

A literal is read from behind its opening quote, character by character, up to its closing quote. A
single-quoted literal knows the escaped backslash and the escaped single quote, and any other
backslash stands for itself. A double-quoted literal may hold a backslash, a double quote or a
dollar sign only where it is escaped, so nothing in it is interpolated. Reading a quoted string
gives the string back, whatever follows it.
-/

namespace LayeredConfig.Code

/-- What a reader makes of the front of a text, with the text that is left; `none` when the text
does not start as the reader expects. -/
abbrev Reader (α : Type) := List Char → Option (α × List Char)

/-- How one kind of literal is written: its quote, the characters that a backslash escapes, whether
any other backslash stands for itself, and the characters that may only stand escaped. -/
structure LiteralForm where
  quote : Char
  isEscapable : Char → Bool
  keepsBackslash : Bool
  isBarred : Char → Bool
  escapable_quote : isEscapable quote
  escapable_backslash : isEscapable '\\'
  escapable_of_barred : ∀ c, isBarred c → isEscapable c
  quote_ne_backslash : quote ≠ '\\'

namespace LiteralForm

/-- The single-quoted literal. -/
def single : LiteralForm where
  quote := '\''
  isEscapable c := c = '\\' || c = '\''
  keepsBackslash := true
  isBarred _ := false
  escapable_quote := by decide
  escapable_backslash := by decide
  escapable_of_barred := by simp
  quote_ne_backslash := by decide

/-- The double-quoted literal, in which a dollar sign would start an interpolation. -/
def double : LiteralForm where
  quote := '"'
  isEscapable c := c = '\\' || c = '"' || c = '$'
  keepsBackslash := false
  isBarred c := c = '$'
  escapable_quote := by decide
  escapable_backslash := by decide
  escapable_of_barred := by simp
  quote_ne_backslash := by decide

/-- Reads a literal from behind its opening quote. -/
def read (form : LiteralForm) : Reader (List Char)
  | [] => none
  | c :: rest =>
    if c = form.quote then some ([], rest)
    else if c = '\\' then
      match rest with
      | [] => none
      | d :: behind =>
        if form.isEscapable d then (form.read behind).map fun (s, left) ↦ (d :: s, left)
        else if form.keepsBackslash then
          (form.read (d :: behind)).map fun (s, left) ↦ (c :: s, left)
        else none
    else if form.isBarred c then none
    else (form.read rest).map fun (s, left) ↦ (c :: s, left)

private theorem read_quote (form : LiteralForm) (rest : List Char) :
    form.read (form.quote :: rest) = some ([], rest) := by
  rw [read.eq_def]
  simp

private theorem read_escaped {form : LiteralForm} {c : Char} (rest : List Char)
    (h : form.isEscapable c) :
    form.read ('\\' :: c :: rest) = (form.read rest).map fun (s, left) ↦ (c :: s, left) := by
  rw [read, if_neg (Ne.symm form.quote_ne_backslash), if_pos rfl, if_pos h]

/-- A character that need not be escaped is neither the quote nor a backslash, and not barred. -/
theorem ne_of_not_escapable {form : LiteralForm} {c : Char} (h : form.isEscapable c = false) :
    c ≠ form.quote ∧ c ≠ '\\' ∧ ¬ form.isBarred c := by
  refine ⟨?_, ?_, fun hbarred ↦ ?_⟩
  · rintro rfl
    exact absurd form.escapable_quote (by simp [h])
  · rintro rfl
    exact absurd form.escapable_backslash (by simp [h])
  · exact absurd (form.escapable_of_barred c hbarred) (by simp [h])

private theorem read_plain {form : LiteralForm} {c : Char} (rest : List Char)
    (h : form.isEscapable c = false) :
    form.read (c :: rest) = (form.read rest).map fun (s, left) ↦ (c :: s, left) := by
  obtain ⟨hquote, hbackslash, hbarred⟩ := ne_of_not_escapable h
  rw [read.eq_def]
  simp only [hquote, hbackslash, hbarred, if_false]
  rfl

/-- Reading what is escaped gives it back, and nothing behind the closing quote is touched. -/
theorem read_escape (form : LiteralForm) (s rest : List Char) :
    form.read (escape form.isEscapable s ++ form.quote :: rest) = some (s, rest) := by
  induction s with
  | nil => exact read_quote form rest
  | cons c s ih =>
    rw [escape, List.flatMap_cons, ← escape]
    by_cases hc : form.isEscapable c
    · rw [if_pos hc, List.append_assoc, List.cons_append, List.singleton_append,
        read_escaped _ hc, ih, Option.map_some]
    · rw [if_neg hc, List.append_assoc, List.singleton_append,
        read_plain _ (Bool.not_eq_true _ ▸ hc), ih, Option.map_some]

private theorem left_of_map_cons {c : Char} {result : Option (List Char × List Char)}
    {s left : List Char} (h : result.map (fun (s, left) ↦ (c :: s, left)) = some (s, left)) :
    ∃ s', result = some (s', left) := by
  obtain ⟨⟨s', left'⟩, hread, he⟩ := Option.map_eq_some_iff.mp h
  obtain ⟨-, rfl⟩ := Prod.mk.inj he
  exact ⟨s', hread⟩

/-- A literal takes at least its closing quote. -/
theorem length_of_read {form : LiteralForm} {text s left : List Char}
    (h : form.read text = some (s, left)) : left.length < text.length := by
  fun_induction read form text generalizing s with
  | case1 => exact absurd h nofun
  | case2 rest =>
    obtain ⟨-, rfl⟩ := Prod.mk.inj (Option.some.inj h)
    simp
  | case3 => exact absurd h nofun
  | case4 d behind _ _ ih =>
    obtain ⟨s', hs⟩ := left_of_map_cons h
    have := ih hs
    simp only [List.length_cons]
    omega
  | case5 d behind _ _ _ ih =>
    obtain ⟨s', hs⟩ := left_of_map_cons h
    have := ih hs
    simp only [List.length_cons] at this ⊢
    omega
  | case6 => exact absurd h nofun
  | case7 => exact absurd h nofun
  | case8 c rest _ _ _ ih =>
    obtain ⟨s', hs⟩ := left_of_map_cons h
    have := ih hs
    simp only [List.length_cons]
    omega

end LiteralForm

end LayeredConfig.Code
