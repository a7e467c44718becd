/-!
# White space

The blank characters are those with the `White_Space` property of Unicode. Trimming removes them
from the ends of a text and never from its inside.
-/

namespace LayeredConfig.Characters

/-- Whether a character has the `White_Space` property. -/
def isBlank (c : Char) : Bool :=
  let n := c.toNat
  (0x09 ≤ n && n ≤ 0x0D) || n == 0x20 || n == 0x85 || n == 0xA0 || n == 0x1680
    || (0x2000 ≤ n && n ≤ 0x200A) || n == 0x2028 || n == 0x2029 || n == 0x202F || n == 0x205F
    || n == 0x3000

/-- Drops the characters of a class from the end. -/
def dropEndWhile (p : Char → Bool) (text : List Char) : List Char :=
  (text.reverse.dropWhile p).reverse

/-- Drops the characters of a class from both ends. -/
def trimWhile (p : Char → Bool) (text : List Char) : List Char :=
  dropEndWhile p (text.dropWhile p)

/-- Drops blank characters from both ends. -/
def trim (text : List Char) : List Char := trimWhile isBlank text

/-- What follows a leading part, when the text starts with it. -/
def dropPrefix? (lead : List Char) (text : List Char) : Option (List Char) :=
  match lead, text with
  | [], rest => some rest
  | c :: lead, d :: rest => if c = d then dropPrefix? lead rest else none
  | _ :: _, [] => none

/-- A text starts with the part that `dropPrefix?` removes from it. -/
theorem dropPrefix?_eq_some_iff {lead text rest : List Char} :
    dropPrefix? lead text = some rest ↔ text = lead ++ rest := by
  induction lead generalizing text with
  | nil => simp [dropPrefix?, eq_comm]
  | cons c lead ih =>
    cases text with
    | nil => simp [dropPrefix?]
    | cons d text =>
      by_cases h : c = d
      · simp [dropPrefix?, h, ih]
      · simp [dropPrefix?, h, Ne.symm h]

end LayeredConfig.Characters
