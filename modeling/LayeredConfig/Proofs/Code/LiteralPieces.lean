import LayeredConfig.Characters.Blank
import LayeredConfig.Proofs.Code.Literal

/-!
# The pieces of a literal

A lexer takes a literal apart from its opening quote on. A backslash takes the character behind it
along; any other character stands for itself, or starts an interpolation, or is the quote that
closes the literal. Reading a literal is taking it apart and putting together what its pieces stand
for.

The main statement is `lex_quoted`: a quoted string is one literal of its kind, whatever follows it,
in which nothing is interpolated and whose pieces stand for the string.

A string may also be escaped by one pass over the text for each special character. The pass for the
backslash must be the first: a later one would escape the backslashes of the others again.
-/

namespace LayeredConfig.Code

open Characters (dropPrefix? dropPrefix?_eq_some_iff)

/-! ### One pass for each character -/

private theorem escape_cons (special : Char → Bool) (c : Char) (text : List Char) :
    escape special (c :: text) = (if special c then ['\\', c] else [c]) ++ escape special text :=
  List.flatMap_cons

/-- A second pass escapes the characters of both, if it has none of the first and no backslash. -/
theorem escape_escape {first second : Char → Bool} (hdisjoint : ∀ c, first c → second c = false)
    (hbackslash : second '\\' = false) (text : List Char) :
    escape second (escape first text) = escape (fun c ↦ first c || second c) text := by
  induction text with
  | nil => rfl
  | cons c text ih =>
    by_cases hc : first c
    · -- the second pass leaves an escaped character and its backslash alone
      rw [escape_cons, if_pos hc, List.cons_append, List.singleton_append, escape_cons, escape_cons,
        escape_cons, ih]
      simp [hc, hdisjoint c hc, hbackslash]
    · rw [escape_cons, if_neg hc, List.singleton_append, escape_cons, escape_cons, ih]
      simp [hc]

private theorem toList_singleQuoted (s : String) :
    (singleQuoted s).toList
      = '\'' :: escape (· = '\'') (escape (· = '\\') s.toList) ++ ['\''] := by
  rw [escape_escape (by simp) (by decide), singleQuoted, String.toList_ofList]
  rfl

private theorem toList_doubleQuoted (s : String) :
    (doubleQuoted s).toList
      = '"' :: escape (· = '$') (escape (· = '"') (escape (· = '\\') s.toList)) ++ ['"'] := by
  have hspecial : isDoubleSpecial = fun c ↦ c = '\\' || (c = '"' || c = '$') := by
    funext c
    rw [isDoubleSpecial, Bool.or_assoc]
  rw [escape_escape (by simp) (by decide), escape_escape (by simp) (by decide), doubleQuoted,
    String.toList_ofList, hspecial]

/-! ### Taking a literal apart -/

/-- A piece of a literal. -/
inductive Piece where
  /-- A character that stands for itself. -/
  | plain (c : Char)
  /-- A backslash and the character behind it. -/
  | sequence (c : Char)
  /-- A character that starts an interpolation. -/
  | interpolation (c : Char)
deriving DecidableEq, Repr

namespace LiteralForm

/-- Takes a literal apart from behind its opening quote. A character that may only stand escaped
starts an interpolation where it does not. -/
def pieces (form : LiteralForm) : Reader (List Piece)
  | [] => none
  | c :: rest =>
    if c = form.quote then some ([], rest)
    else if c = '\\' then
      match rest with
      | [] => none
      | d :: behind => (form.pieces behind).map fun (list, left) ↦ (.sequence d :: list, left)
    else if form.isBarred c then
      (form.pieces rest).map fun (list, left) ↦ (.interpolation c :: list, left)
    else (form.pieces rest).map fun (list, left) ↦ (.plain c :: list, left)

/-- Takes a literal apart from its opening quote on. -/
def lex (form : LiteralForm) : Reader (List Piece) := fun text ↦
  (dropPrefix? [form.quote] text).bind form.pieces

/-- What a piece stands for. An interpolation stands for no text of its own, and where a backslash
does not stand for itself, only the characters that it escapes are known. -/
def pieceText? (form : LiteralForm) : Piece → Option (List Char)
  | .plain c => some [c]
  | .sequence c =>
    if form.isEscapable c then some [c]
    else if form.keepsBackslash then some ['\\', c]
    else none
  | .interpolation _ => none

/-- What pieces stand for together. -/
def text? (form : LiteralForm) : List Piece → Option (List Char)
  | [] => some []
  | piece :: rest => do
    let front ← form.pieceText? piece
    let back ← form.text? rest
    return front ++ back

variable {form : LiteralForm}

/-- Pieces that stand for a text do so one by one. -/
theorem isSome_pieceText?_of_text? {list : List Piece} {s : List Char}
    (h : form.text? list = some s) : ∀ piece ∈ list, (form.pieceText? piece).isSome := by
  induction list generalizing s with
  | nil => exact fun piece hpiece ↦ absurd hpiece List.not_mem_nil
  | cons first rest ih =>
    obtain ⟨front, hfront, h⟩ := Option.bind_eq_some_iff.mp h
    obtain ⟨back, hback, -⟩ := Option.bind_eq_some_iff.mp h
    exact List.forall_mem_cons.mpr ⟨by rw [hfront]; rfl, ih hback⟩

private theorem not_mem_interpolation_of_text? {list : List Piece} {s : List Char}
    (h : form.text? list = some s) (c : Char) : Piece.interpolation c ∉ list := by
  intro hmem
  have hsome := isSome_pieceText?_of_text? h _ hmem
  cases hsome

private theorem isEscapable_of_isSome {c : Char} (h : (form.pieceText? (.sequence c)).isSome)
    (hkeeps : form.keepsBackslash = false) : form.isEscapable c := by
  rw [pieceText?, hkeeps] at h
  split at h
  · assumption
  · cases h

/-! ### Reading as taking apart -/

private theorem pieces_quote (form : LiteralForm) (rest : List Char) :
    form.pieces (form.quote :: rest) = some ([], rest) := by
  rw [pieces.eq_def]
  simp

private theorem pieces_sequence (form : LiteralForm) (c : Char) (rest : List Char) :
    form.pieces ('\\' :: c :: rest)
      = (form.pieces rest).map fun (list, left) ↦ (.sequence c :: list, left) := by
  rw [pieces, if_neg (Ne.symm form.quote_ne_backslash), if_pos rfl]

private theorem pieces_interpolation {c : Char} (rest : List Char) (hquote : c ≠ form.quote)
    (hbackslash : c ≠ '\\') (hbarred : form.isBarred c) :
    form.pieces (c :: rest)
      = (form.pieces rest).map fun (list, left) ↦ (.interpolation c :: list, left) := by
  rw [pieces.eq_def]
  simp only [hquote, hbackslash, hbarred, if_false, if_true]

private theorem pieces_plain {c : Char} (rest : List Char) (hquote : c ≠ form.quote)
    (hbackslash : c ≠ '\\') (hbarred : ¬ form.isBarred c) :
    form.pieces (c :: rest)
      = (form.pieces rest).map fun (list, left) ↦ (.plain c :: list, left) := by
  rw [pieces.eq_def]
  simp only [hquote, hbackslash, hbarred, if_false]
  rfl

/-- What the pieces of a literal stand for, with what is left behind it. -/
def joined (form : LiteralForm) (result : Option (List Piece × List Char)) :
    Option (List Char × List Char) := do
  let (list, left) ← result
  let s ← form.text? list
  return (s, left)

private theorem joined_cons (form : LiteralForm) {piece : Piece} {front : List Char}
    (h : form.pieceText? piece = some front) (result : Option (List Piece × List Char)) :
    form.joined (result.map fun (list, left) ↦ (piece :: list, left))
      = (form.joined result).map fun (s, left) ↦ (front ++ s, left) := by
  rcases result with _ | ⟨list, left⟩
  · rfl
  · simp only [joined, text?, h, Option.map_some, Option.bind_eq_bind, Option.bind_some]
    cases form.text? list <;> rfl

private theorem joined_cons_of_none (form : LiteralForm) {piece : Piece}
    (h : form.pieceText? piece = none) (result : Option (List Piece × List Char)) :
    form.joined (result.map fun (list, left) ↦ (piece :: list, left)) = none := by
  rcases result with _ | ⟨list, left⟩
  · rfl
  · simp only [joined, text?, h, Option.map_some, Option.bind_eq_bind, Option.bind_some,
      Option.bind_none]

private theorem read_eq_joined_pieces (form : LiteralForm) (text : List Char) :
    form.read text = form.joined (form.pieces text) := by
  fun_induction read form text with
  | case1 => rfl
  | case2 rest =>
    rw [pieces_quote]
    rfl
  | case3 hquote =>
    rw [pieces.eq_def]
    simp [hquote, joined]
  | case4 d behind hd _ ih =>
    have hpiece : form.pieceText? (.sequence d) = some [d] := by
      rw [pieceText?, if_pos hd]
    rw [ih, pieces_sequence, form.joined_cons hpiece]
    rfl
  | case5 d behind hd hkeeps _ ih =>
    -- the character behind the backslash is read again, as a plain one
    have hpiece : form.pieceText? (.sequence d) = some ['\\', d] := by
      rw [pieceText?, if_neg hd, if_pos hkeeps]
    obtain ⟨hquote, hbackslash, hbarred⟩ := ne_of_not_escapable (Bool.not_eq_true _ ▸ hd)
    have hplain : form.pieceText? (.plain d) = some [d] := rfl
    rw [ih, pieces_plain _ hquote hbackslash hbarred, pieces_sequence, form.joined_cons hpiece,
      form.joined_cons hplain, Option.map_map]
    rfl
  | case6 d behind hd hkeeps _ =>
    have hpiece : form.pieceText? (.sequence d) = none := by
      rw [pieceText?, if_neg hd, if_neg hkeeps]
    rw [pieces_sequence, form.joined_cons_of_none hpiece]
  | case7 c rest hquote hbackslash hbarred =>
    have hpiece : form.pieceText? (.interpolation c) = none := rfl
    rw [pieces_interpolation _ hquote hbackslash hbarred, form.joined_cons_of_none hpiece]
  | case8 c rest hquote hbackslash hbarred ih =>
    have hpiece : form.pieceText? (.plain c) = some [c] := rfl
    rw [ih, pieces_plain _ hquote hbackslash hbarred, form.joined_cons hpiece]
    rfl

private theorem lex_escape (form : LiteralForm) (s rest : List Char) :
    ∃ list, form.lex (form.quote :: (escape form.isEscapable s ++ form.quote :: rest))
        = some (list, rest) ∧ form.text? list = some s := by
  have hopen : dropPrefix? [form.quote]
      (form.quote :: (escape form.isEscapable s ++ form.quote :: rest))
        = some (escape form.isEscapable s ++ form.quote :: rest) := dropPrefix?_eq_some_iff.mpr rfl
  have hread := form.read_escape s rest
  rw [read_eq_joined_pieces] at hread
  obtain ⟨⟨list, left⟩, hpieces, hread⟩ := Option.bind_eq_some_iff.mp hread
  obtain ⟨s', htext, he⟩ := Option.bind_eq_some_iff.mp hread
  obtain ⟨rfl, rfl⟩ := Prod.mk.inj (Option.some.inj he)
  exact ⟨list, by rw [lex, hopen, Option.bind_some, hpieces], htext⟩

end LiteralForm

/-- **Quoting is exact.** A string is quoted by one pass over it for each special character, the
backslash first. Whatever follows, the single-quoted literal is taken apart up to its closing quote
into pieces that stand for the string. So is the double-quoted one, in which nothing is interpolated
and a backslash only stands before a backslash, a double quote or a dollar sign. -/
theorem lex_quoted (s : String) (rest : List Char) :
    ((singleQuoted s).toList
        = '\'' :: escape (· = '\'') (escape (· = '\\') s.toList) ++ ['\''] ∧
      ∃ pieces, LiteralForm.single.lex ((singleQuoted s).toList ++ rest) = some (pieces, rest) ∧
        LiteralForm.single.text? pieces = some s.toList) ∧
    ((doubleQuoted s).toList
        = '"' :: escape (· = '$') (escape (· = '"') (escape (· = '\\') s.toList)) ++ ['"'] ∧
      ∃ pieces, LiteralForm.double.lex ((doubleQuoted s).toList ++ rest) = some (pieces, rest) ∧
        (∀ c, Piece.interpolation c ∉ pieces) ∧
        (∀ c, Piece.sequence c ∈ pieces → c = '\\' ∨ c = '"' ∨ c = '$') ∧
        LiteralForm.double.text? pieces = some s.toList) := by
  have hsingle : (singleQuoted s).toList ++ rest
      = '\'' :: (escape isSingleSpecial s.toList ++ '\'' :: rest) := by
    simp [singleQuoted]
  have hdouble : (doubleQuoted s).toList ++ rest
      = '"' :: (escape isDoubleSpecial s.toList ++ '"' :: rest) := by
    simp [doubleQuoted]
  obtain ⟨first, hfirst, hs⟩ := LiteralForm.single.lex_escape s.toList rest
  obtain ⟨second, hsecond, ht⟩ := LiteralForm.double.lex_escape s.toList rest
  refine ⟨⟨toList_singleQuoted s, first, ?_, hs⟩, toList_doubleQuoted s, second, ?_,
    LiteralForm.not_mem_interpolation_of_text? ht, fun c hc ↦ ?_, ht⟩
  · rw [hsingle]
    exact hfirst
  · rw [hdouble]
    exact hsecond
  · have hknown := LiteralForm.isSome_pieceText?_of_text? ht _ hc
    have hescapable := LiteralForm.isEscapable_of_isSome hknown rfl
    simpa [LiteralForm.double, or_assoc] using hescapable

/-- A dollar sign that is not escaped is met as an interpolation. -/
example : LiteralForm.double.lex "\"a$b\";".toList
    = some ([.plain 'a', .interpolation '$', .plain 'b'], [';']) := by decide +kernel

/-- With the pass for the backslash last, a quote would close the literal. -/
example : LiteralForm.single.lex
    ('\'' :: escape (· = '\\') (escape (· = '\'') "';".toList) ++ ['\''])
      = some ([.sequence '\\'], [';', '\'']) := by decide +kernel

end LayeredConfig.Code
