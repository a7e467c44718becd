import LayeredConfig.Characters.Blank
import LayeredConfig.Code.Structured
import LayeredConfig.Proofs.Code.Literal

/-!
# Reading values

A value stands in generated code as a word, a decimal number, a single-quoted literal or, for an
empty tree, an empty array. It is read without knowing where it ends; a number ends in front of
whatever is no digit. Floats and verbatim texts are not read.
-/

namespace LayeredConfig.Code

open Characters (dropPrefix?)

/-! ### Numbers -/

/-- Reads a run of decimal digits. -/
def readDigits : Reader Nat := fun text ↦
  if text.takeWhile Char.isDigit = [] then none
  else some (Nat.ofDigitChars 10 (text.takeWhile Char.isDigit) 0, text.dropWhile Char.isDigit)

/-- Reads an integer; one beyond the signed range is unsigned. -/
def readNumber (text : List Char) : Option (Value × List Char) :=
  match dropPrefix? ['-'] text with
  | some behind => (readDigits behind).map fun (n, left) ↦
    (.scalar (.integer (Int64.ofInt (-n))), left)
  | none => (readDigits text).map fun (n, left) ↦
    (.scalar (if n < 0x8000000000000000 then .integer (Int64.ofInt n)
      else .unsigned (UInt64.ofNat n)), left)

/-- The code of a number ends where a character follows that is no digit. -/
theorem readDigits_repr (n : Nat) {c : Char} (rest : List Char) (h : c.isDigit = false) :
    readDigits (n.repr.toList ++ c :: rest) = some (n, c :: rest) := by
  have hdigits : ∀ d ∈ Nat.toDigits 10 n, d.isDigit :=
    fun d hd ↦ Nat.isDigit_of_mem_toDigits (by decide) (by decide) hd
  rw [readDigits, Nat.toList_repr, List.takeWhile_append_of_pos hdigits,
    List.dropWhile_append_of_pos hdigits, List.takeWhile_cons_of_neg (by simp [h]),
    List.dropWhile_cons_of_neg (by simp [h]), List.append_nil, if_neg Nat.toDigits_ne_nil,
    Nat.ofDigitChars_ten_toDigits]

/-- The code of a number has no sign in front. -/
theorem dropPrefix?_minus_repr (n : Nat) (rest : List Char) :
    dropPrefix? ['-'] (n.repr.toList ++ rest) = none := by
  rw [Nat.toList_repr]
  cases hd : Nat.toDigits 10 n with
  | nil => exact absurd hd Nat.toDigits_ne_nil
  | cons d digits =>
    have hdigit : d.isDigit :=
      Nat.isDigit_of_mem_toDigits (by decide) (by decide) (hd ▸ List.mem_cons_self)
    have hne : '-' ≠ d := by
      rintro rfl
      exact absurd hdigit (by decide)
    simp [dropPrefix?, hne]

private theorem readNumber_integer (n : Int64) {c : Char} (rest : List Char)
    (h : c.isDigit = false) :
    readNumber ((toString n.toInt).toList ++ c :: rest)
      = some (.scalar (.integer n), c :: rest) := by
  have hn := Int64.ofInt_toInt n
  have hlt := n.toInt_lt
  rw [Int.toString_eq_repr]
  generalize n.toInt = i at hn hlt
  cases i with
  | ofNat m =>
    have hm : m < 0x8000000000000000 := by
      change (m : Int) < 2 ^ 63 at hlt
      omega
    simp only [Int.repr, readNumber, dropPrefix?_minus_repr, readDigits_repr m rest h,
      Option.map_some, if_pos hm]
    rw [← hn]
    rfl
  | negSucc m =>
    simp only [Int.repr, readNumber, String.toList_append, List.append_assoc]
    have hminus : dropPrefix? ['-'] ("-".toList ++ (m.succ.repr.toList ++ c :: rest))
        = some (m.succ.repr.toList ++ c :: rest) :=
      Characters.dropPrefix?_eq_some_iff.mpr rfl
    rw [hminus]
    simp only [readDigits_repr m.succ rest h, Option.map_some]
    rw [← hn]
    rfl

private theorem readNumber_unsigned (n : UInt64) {c : Char} (rest : List Char)
    (h : c.isDigit = false)
    (hn : 0x8000000000000000 ≤ n.toNat) :
    readNumber ((toString n.toNat).toList ++ c :: rest)
      = some (.scalar (.unsigned n), c :: rest) := by
  have hlarge : ¬ n.toNat < 0x8000000000000000 := by omega
  simp only [Nat.toString_eq_repr, readNumber, dropPrefix?_minus_repr,
    readDigits_repr n.toNat rest h, Option.map_some, if_neg hlarge, UInt64.ofNat_toNat]

/-! ### Values -/

/-- The values that are written as words. -/
def words : List (String × Value) :=
  [("null", .scalar .null), ("true", .scalar (.bool true)), ("false", .scalar (.bool false)),
    (emptyArray, .tree [])]

/-- Reads a word. -/
def readWord : Reader Value := fun text ↦
  words.findSome? fun (word, value) ↦ (dropPrefix? word.toList text).map (value, ·)

/-- Reads a string. -/
def readString : Reader Value := fun text ↦
  (dropPrefix? ['\''] text).bind fun behind ↦
    (LiteralForm.single.read behind).map fun (s, left) ↦
      (.scalar (.text (.quoted (String.ofList s))), left)

/-- Reads a value. -/
def readValue : Reader Value := fun text ↦
  (readNumber text).or ((readWord text).or (readString text))

/-- Whether a leaf can be told from its code: it is no float, no verbatim text and no integer of
the signed range that is held as unsigned. -/
def IsPlain : Value → Prop
  | .scalar (.float _) => False
  | .scalar (.unsigned n) => 0x8000000000000000 ≤ n.toNat
  | .scalar (.text t) => t.isLiteral = false
  | _ => True

instance : DecidablePred IsPlain
  | .scalar (.float _) => inferInstanceAs (Decidable False)
  | .scalar (.unsigned n) => inferInstanceAs (Decidable (0x8000000000000000 ≤ n.toNat))
  | .scalar (.text t) => inferInstanceAs (Decidable (t.isLiteral = false))
  | .scalar .null | .scalar (.bool _) | .scalar (.integer _) | .tree _ => isTrue trivial

/-- The code of a value at a target, a tree being an empty one. -/
def valueCode (target : String) : Value → Except GenerationError String
  | .scalar s => ofScalar target s
  | .tree _ => .ok emptyArray

/-- The code of a value that has one at every target. -/
def plainCode (value : Value) : String := (valueCode "" value).toOption.getD ""

/-- A value other than a number that is not finite has the same code at every target. -/
theorem valueCode_of_isFinite (target : String) {value : Value}
    (h : ∀ x, value = .scalar (.float x) → x.isFinite = true) :
    valueCode target value = .ok (plainCode value) := by
  match value with
  | .scalar .null => rfl
  | .scalar (.bool b) => rfl
  | .scalar (.integer n) => rfl
  | .scalar (.unsigned n) => rfl
  | .scalar (.float x) => simp [plainCode, valueCode, ofScalar, h x rfl, Except.toOption]
  | .scalar (.text t) => rfl
  | .tree entries => rfl

/-- A value that has code at some target has it at every target. -/
theorem eq_plainCode_of_valueCode {target code : String} {value : Value}
    (h : valueCode target value = .ok code) : code = plainCode value := by
  have hfinite : ∀ x, value = .scalar (.float x) → x.isFinite = true := by
    rintro x rfl
    rw [valueCode, ofScalar] at h
    split at h
    · assumption
    · exact absurd h nofun
  rw [valueCode_of_isFinite target hfinite] at h
  exact (Except.ok.inj h).symm

/-- A plain value has the same code at every target. -/
theorem valueCode_of_isPlain (target : String) {value : Value} (h : IsPlain value) :
    valueCode target value = .ok (plainCode value) := by
  refine valueCode_of_isFinite target fun x hx ↦ ?_
  rw [hx] at h
  exact absurd h id

private theorem readWord_of_mem {word : String} {value : Value} (h : (word, value) ∈ words)
    (rest : List Char) : readWord (word.toList ++ rest) = some (value, rest) := by
  simp only [words, List.mem_cons, Prod.mk.injEq, List.not_mem_nil, or_false] at h
  rcases h with ⟨rfl, rfl⟩ | ⟨rfl, rfl⟩ | ⟨rfl, rfl⟩ | ⟨rfl, rfl⟩ <;> rfl

private theorem readNumber_of_mem_words {word : String} {value : Value} (h : (word, value) ∈ words)
    (rest : List Char) : readNumber (word.toList ++ rest) = none := by
  simp only [words, List.mem_cons, Prod.mk.injEq, List.not_mem_nil, or_false] at h
  rcases h with ⟨rfl, rfl⟩ | ⟨rfl, rfl⟩ | ⟨rfl, rfl⟩ | ⟨rfl, rfl⟩ <;> rfl

private theorem readValue_of_mem_words {word : String} {value : Value} (h : (word, value) ∈ words)
    (rest : List Char) : readValue (word.toList ++ rest) = some (value, rest) := by
  rw [readValue, readNumber_of_mem_words h, readWord_of_mem h]
  rfl

private theorem readValue_singleQuoted (s : String) (rest : List Char) :
    readValue ((singleQuoted s).toList ++ rest)
      = some (.scalar (.text (.quoted s)), rest) := by
  have hread : LiteralForm.single.read (escape isSingleSpecial s.toList ++ '\'' :: rest)
      = some (s.toList, rest) := LiteralForm.single.read_escape s.toList rest
  have htext : (singleQuoted s).toList ++ rest
      = '\'' :: (escape isSingleSpecial s.toList ++ '\'' :: rest) := by
    simp [singleQuoted]
  rw [htext]
  have hstring : readString ('\'' :: (escape isSingleSpecial s.toList ++ '\'' :: rest))
      = some (.scalar (.text (.quoted s)), rest) := by
    simp [readString, dropPrefix?, hread]
  rw [readValue, hstring]
  rfl

private theorem readValue_of_readNumber {text : List Char} {result : Value × List Char}
    (h : readNumber text = some result) : readValue text = some result := by
  rw [readValue, h]
  rfl

/-- The code of a plain value is read back in front of a character that is no digit. -/
theorem readValue_plainCode {value : Value} (h : IsPlain value)
    (htip : (∃ s, value = .scalar s) ∨ value = .tree []) {c : Char} (rest : List Char)
    (hc : c.isDigit = false) :
    readValue ((plainCode value).toList ++ c :: rest) = some (value, c :: rest) := by
  match value with
  | .scalar .null => exact readValue_of_mem_words (by decide) _
  | .scalar (.bool true) => exact readValue_of_mem_words (by decide) _
  | .scalar (.bool false) => exact readValue_of_mem_words (by decide) _
  | .scalar (.integer n) => exact readValue_of_readNumber (readNumber_integer n rest hc)
  | .scalar (.unsigned n) => exact readValue_of_readNumber (readNumber_unsigned n rest hc h)
  | .scalar (.float x) => exact absurd h id
  | .scalar (.text (.quoted s)) => exact readValue_singleQuoted s _
  | .scalar (.text (.literal s)) => exact absurd h (by simp [IsPlain, Text.isLiteral])
  | .tree [] => exact readValue_of_mem_words (by decide) _
  | .tree (entry :: rest) => simp at htip

end LayeredConfig.Code
