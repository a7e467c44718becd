/-!
# Double-precision numbers

A number is its 64-bit interchange pattern: one sign bit, eleven exponent bits and fifty-two
fraction bits. Everything said about a number here is exact arithmetic on that pattern. `same` is
the numeric comparison, which separates a not-a-number from itself and joins the two zeros.
-/

namespace LayeredConfig

/-- A double-precision number, held as its 64-bit pattern. -/
structure Binary64 where
  bits : UInt64
deriving DecidableEq, Repr, Inhabited

namespace Binary64

/-- Whether the sign bit is set. -/
def isNegative (x : Binary64) : Bool := 0x8000000000000000 ≤ x.bits.toNat

/-- The eleven exponent bits. -/
def exponentField (x : Binary64) : Nat := x.bits.toNat / 0x10000000000000 % 0x800

/-- The fifty-two fraction bits. -/
def fraction (x : Binary64) : Nat := x.bits.toNat % 0x10000000000000

/-- Whether the pattern stands for a real number. -/
def isFinite (x : Binary64) : Bool := x.exponentField != 2047

/-- Whether the pattern stands for no number at all. -/
def isNaN (x : Binary64) : Bool := x.exponentField == 2047 && x.fraction != 0

/-- Whether the pattern is one of the two zeros. -/
def isZero (x : Binary64) : Bool := x.exponentField == 0 && x.fraction == 0

/-- The integer `m` of a finite magnitude `m · 2 ^ scale`. -/
def significand (x : Binary64) : Nat :=
  if x.exponentField = 0 then x.fraction else x.fraction + 0x10000000000000

/-- The binary exponent that belongs to `significand`. -/
def scale (x : Binary64) : Int := (max x.exponentField 1 : Nat) - 1075

/-- A pattern from its sign and the sixty-three bits of its magnitude. -/
def ofMagnitude (negative : Bool) (magnitude : Nat) : Binary64 :=
  ⟨UInt64.ofNat ((if negative then 0x8000000000000000 else 0) + magnitude)⟩

/-- The magnitude bits of infinity, the first that no finite number has. -/
def infiniteMagnitude : Nat := 0x7FF0000000000000

/-- Infinity of either sign. -/
def infinity (negative : Bool) : Binary64 := ofMagnitude negative infiniteMagnitude

/-- The usual not-a-number: quiet and positive. -/
def nan : Binary64 := ofMagnitude false (infiniteMagnitude + 0x8000000000000)

/-- Numeric equality: a not-a-number equals nothing, and the two zeros are equal. -/
def same (x y : Binary64) : Bool :=
  !x.isNaN && !y.isNaN && (x == y || (x.isZero && y.isZero))

/-- Equality of mapping keys: numeric equality, save that every not-a-number is one key. -/
def sameKey (x y : Binary64) : Bool := (x.isNaN && y.isNaN) || same x y

end Binary64

end LayeredConfig
