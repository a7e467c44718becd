import LayeredConfig.Binary64.Nearest
import LayeredConfig.Characters.Hex
import LayeredConfig.Yaml.Value

/-!
# The value of plain scalars

A plain scalar is null, a truth value, an integer, a number with a fraction, or else a string.
Integers are decimal, hexadecimal, octal or binary. Digits behind a leading zero are a string. An
integer beyond sixty-four bits is a fault as long as it fits one hundred and twenty-eight, and a
float beyond.
-/

namespace LayeredConfig.Yaml

/-- Whether a text spells null. -/
def isNullWord (text : String) : Bool := ["null", "Null", "NULL", "~"].contains text

/-- The truth value that a text spells. -/
def truthValue? (text : String) : Option Bool :=
  if ["true", "True", "TRUE"].contains text then some true
  else if ["false", "False", "FALSE"].contains text then some false
  else none

/-- Whether a text is several digits of which the first is zero, behind an optional sign. -/
def isPaddedDigits (text : List Char) : Bool :=
  let digits := match text with
    | '-' :: rest => rest
    | '+' :: rest => rest
    | rest => rest
  1 < digits.length && digits.head? = some '0' && digits.all Char.isDigit

/-- The number that digits of a base denote; there must be at least one digit. -/
def digitsValue? (base : Nat) (digits : List Char) : Option Nat :=
  if digits.isEmpty then none
  else digits.foldl
    (fun value c ↦ do
      let n ← value
      let d ← Characters.hexValue? c
      if d < base then some (base * n + d) else none)
    (some 0)

/-- The natural number that an unsigned text denotes. `padded` says whether the whole scalar is
digits behind a leading zero, which are no decimal number. -/
def naturalValue? (padded : Bool) : List Char → Option Nat
  | '0' :: 'x' :: digits => digitsValue? 16 digits
  | '0' :: 'o' :: digits => digitsValue? 8 digits
  | '0' :: 'b' :: digits => digitsValue? 2 digits
  | digits => if padded then none else digitsValue? 10 digits

/-- The integer that a text denotes. -/
def integerValue? (text : List Char) : Option Int :=
  let padded := isPaddedDigits text
  match text with
  | '-' :: rest => (naturalValue? padded rest).map fun n ↦ -(n : Int)
  | '+' :: rest => (naturalValue? padded rest).map Int.ofNat
  | rest => (naturalValue? padded rest).map Int.ofNat

/-- The number with a fraction that a text denotes. Its words begin with a point. -/
def floatValue? (text : List Char) : Option Binary64 :=
  if [".inf", ".Inf", ".INF", "+.inf", "+.Inf", "+.INF"].contains (String.ofList text) then
    some (.infinity false)
  else if ["-.inf", "-.Inf", "-.INF"].contains (String.ofList text) then some (.infinity true)
  else if [".nan", ".NaN", ".NAN"].contains (String.ofList text) then some .nan
  else (Binary64.parse? text).filter Binary64.isFinite

/-- The value of an integer text; `none` when the text is no integer or one that is too large for
any integer. -/
def integerScalar? (text : List Char) : Option (Except Fault Value) :=
  (integerValue? text).bind fun n ↦
    match Number.ofInt? n with
    | some number => some (.ok (.number number))
    | none =>
      if -0x80000000000000000000000000000000 ≤ n ∧ n < 0x100000000000000000000000000000000 then
        some (.error .integerOutOfRange)
      else none

/-- The value of a plain scalar without a standard tag. -/
def plainValue (text : String) : Except Fault Value :=
  let chars := text.toList
  if text = "" || isNullWord text then .ok .null
  else match truthValue? text with
    | some b => .ok (.bool b)
    | none =>
      match integerScalar? chars with
      | some value => value
      | none =>
        if isPaddedDigits chars then .ok (.string text)
        else match floatValue? chars with
          | some x => .ok (.number (.float x))
          | none => .ok (.string text)

/-- The standard kinds that a tag can force upon a scalar. -/
inductive StandardTag where
  | bool
  | int
  | float
  | null
deriving DecidableEq, Repr

/-- The value of a scalar under a standard tag, however it was written. -/
def StandardTag.value (tag : StandardTag) (text : String) : Except Fault Value :=
  match tag with
  | .bool => (truthValue? text).elim (.error .badTaggedScalar) fun b ↦ .ok (.bool b)
  | .int => (integerScalar? text.toList).getD (.error .badTaggedScalar)
  | .float =>
    (floatValue? text.toList).elim (.error .badTaggedScalar) fun x ↦ .ok (.number (.float x))
  | .null => if isNullWord text then .ok .null else .error .badTaggedScalar

end LayeredConfig.Yaml
