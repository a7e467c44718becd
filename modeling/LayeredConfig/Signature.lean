import LayeredConfig.Characters.Blank
import LayeredConfig.Characters.Hex
import LayeredConfig.Path
import LayeredConfig.Sha256

/-!
# Signatures

A signature names what an artifact was made from: the lead `config.` and sixty-four hexadecimal
digits. It is the digest of its material, which is the concatenation of the parts in order, without
separators: the text of each document's path and, under the content basis, the bytes of the
document behind it. A name that has the form of a signature is the handle of an artifact.
-/

namespace LayeredConfig

/-- What goes into a signature besides the paths. -/
inductive SignatureBasis where
  | paths
  | content
deriving DecidableEq, Repr, Inhabited

/-- The name of a basis. -/
def SignatureBasis.name : SignatureBasis → String
  | paths => "paths"
  | content => "content"

/-- One part of the material of a signature. -/
inductive SignaturePart where
  | path (path : Path)
  | content (bytes : ByteArray)

namespace SignaturePart

/-- The bytes of a part. -/
def bytes : SignaturePart → List UInt8
  | path p => p.text.toUTF8.data.toList
  | content b => b.data.toList

end SignaturePart

/-- A name made of the lead and sixty-four hexadecimal digits. -/
structure Signature where
  digits : List Char
  length_digits : digits.length = 64
  isHex_digits : digits.all Characters.isHex = true

namespace Signature

/-- What every signature begins with. -/
def lead : String := "config."

/-- The name of a signature. -/
def name (s : Signature) : String := String.ofList (lead.toList ++ s.digits)

instance : DecidableEq Signature := fun s t ↦
  if h : s.digits = t.digits then isTrue (by cases s; cases t; cases h; rfl)
  else isFalse fun e ↦ h (congrArg digits e)

instance : Repr Signature := ⟨fun s _ ↦ repr s.name⟩

/-- Reads a name; `none` unless it is the lead and exactly sixty-four hexadecimal digits. -/
def parse? (name : String) : Option Signature :=
  match Characters.dropPrefix? lead.toList name.toList with
  | none => none
  | some digits =>
    if h : digits.length = 64 ∧ digits.all Characters.isHex = true then
      some ⟨digits, h.1, h.2⟩
    else none

/-- The first twelve digits, for display. -/
def short (s : Signature) : String := String.ofList (s.digits.take 12)

/-- The two digits of a byte. -/
def hexByte (b : UInt8) : List Char :=
  [Characters.hexDigit (b.toNat / 16), Characters.hexDigit (b.toNat % 16)]

private theorem all_isHex_flatMap_hexByte (bytes : List UInt8) :
    (bytes.flatMap hexByte).all Characters.isHex = true := by
  induction bytes with
  | nil => rfl
  | cons b rest ih =>
    have hb : b.toNat < 256 := b.toNat_lt
    rw [List.flatMap_cons, List.all_append, ih, Bool.and_true, hexByte]
    simp only [List.all_cons, List.all_nil, Bool.and_true]
    rw [Characters.isHex_hexDigit (by omega), Characters.isHex_hexDigit (by omega), Bool.and_self]

private theorem length_flatMap_hexByte (bytes : List UInt8) :
    (bytes.flatMap hexByte).length = 2 * bytes.length := by
  induction bytes with
  | nil => rfl
  | cons b rest ih =>
    rw [List.flatMap_cons, List.length_append, ih, hexByte]
    simp only [List.length_cons, List.length_nil]
    omega

/-- The signature of a digest. -/
def ofDigest (digest : Vector UInt8 32) : Signature :=
  { digits := digest.toList.flatMap hexByte
    length_digits := by rw [length_flatMap_hexByte, Vector.length_toList]
    isHex_digits := all_isHex_flatMap_hexByte _ }

/-- The bytes that a signature is the digest of. -/
def material (parts : List SignaturePart) : List UInt8 := parts.flatMap SignaturePart.bytes

/-- The signature of parts in order. -/
def ofParts (parts : List SignaturePart) : Signature := ofDigest (Sha256.digest (material parts))

/-- The signature of paths in order. -/
def ofPaths (paths : List Path) : Signature := ofParts (paths.map .path)

end Signature

end LayeredConfig
