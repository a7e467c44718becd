/-!
# Texts

A text of a document is quoted or literal. A literal text is an expression that generated code
keeps verbatim; in a document it is marked by a leading sigil, which is not part of the text
itself. Both keys and string values are texts.
-/

namespace LayeredConfig

/-- A key or string value: a quoted string, or an expression emitted verbatim. -/
inductive Text where
  | quoted (bare : String)
  | literal (bare : String)
deriving DecidableEq, Repr, Inhabited

namespace Text

/-- The sigil that marks literal texts unless settings choose another one. -/
def defaultSigil : Char := '≈'

/-- The text without its mark. -/
def bare : Text → String
  | quoted s => s
  | literal s => s

/-- Whether the text is emitted verbatim. -/
def isLiteral : Text → Bool
  | quoted _ => false
  | literal _ => true

/-- The text with the given bare form and mark. -/
def tagged (bare : String) (isLiteral : Bool) : Text :=
  if isLiteral then literal bare else quoted bare

/-- Classifies a string of a document: a leading sigil makes it literal and is dropped. -/
def ofRaw (sigil : Char) (raw : String) : Text :=
  match raw.toList with
  | [] => quoted raw
  | c :: rest => if c = sigil then literal (String.ofList rest) else quoted raw

/-- The string that a document would hold: a literal text carries the sigil again. -/
def toRaw (sigil : Char) : Text → String
  | quoted s => s
  | literal s => String.ofList (sigil :: s.toList)

/-- A text is rebuilt from its bare form and its mark. -/
theorem tagged_bare_isLiteral (t : Text) : tagged t.bare t.isLiteral = t := by
  cases t <;> rfl

/-- The bare form of a tagged text is the string it was made from. -/
theorem bare_tagged (s : String) (b : Bool) : (tagged s b).bare = s := by
  cases b <;> rfl

/-- The mark of a tagged text is the one it was made with. -/
theorem isLiteral_tagged (s : String) (b : Bool) : (tagged s b).isLiteral = b := by
  cases b <;> rfl

/-- Texts with one bare form and one mark are the same. -/
theorem ext {t u : Text} (hbare : t.bare = u.bare) (hmark : t.isLiteral = u.isLiteral) : t = u := by
  rw [← tagged_bare_isLiteral t, hbare, hmark, tagged_bare_isLiteral]

/-- Classifying a string and writing it out again changes nothing. -/
theorem toRaw_ofRaw (sigil : Char) (raw : String) : (ofRaw sigil raw).toRaw sigil = raw := by
  unfold ofRaw
  split
  · rfl
  · next c rest h =>
    split
    · next hc =>
      simp only [toRaw, String.toList_ofList, ← hc]
      rw [← h, String.ofList_toList]
    · rfl

/-- A literal text is read back from its written form. -/
theorem ofRaw_toRaw_literal (sigil : Char) (s : String) :
    ofRaw sigil ((literal s).toRaw sigil) = literal s := by
  simp [ofRaw, toRaw]

end Text

end LayeredConfig
