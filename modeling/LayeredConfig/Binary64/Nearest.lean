import LayeredConfig.Binary64.Basic

/-!
# The number nearest to a decimal

`ofDecimal` rounds `digits · 10 ^ exponent` to the nearest double-precision number, a tie going to
the even significand, in exact natural arithmetic. `parse?` reads the decimal texts of
configuration documents and settings: an optional sign, digits with an optional point and an
optional exponent, or one of the words for infinity and not-a-number.
-/

namespace LayeredConfig.Binary64

/-- The quotient rounded to the nearest integer, a tie going to the even one. -/
def roundQuotient (numerator denominator : Nat) : Nat :=
  let floor := numerator / denominator
  let twice := 2 * (numerator % denominator)
  if twice < denominator then floor
  else if denominator < twice then floor + 1
  else floor + floor % 2

/-- The magnitude bits nearest to a positive fraction, infinity when it is too large. -/
def nearestMagnitude (numerator denominator : Nat) : Nat :=
  let estimate : Int := (Nat.log2 numerator : Int) - Nat.log2 denominator - 53
  let scaled (q : Int) : Nat × Nat :=
    if q < 0 then (numerator <<< (-q).toNat, denominator)
    else (numerator, denominator <<< q.toNat)
  let small := scaled estimate
  let exact : Int := if small.1 / small.2 < 0x20000000000000 then estimate else estimate + 1
  let q := max exact (-1074)
  let fraction := scaled q
  let magnitude := (q + 1074).toNat <<< 52 + roundQuotient fraction.1 fraction.2
  min magnitude infiniteMagnitude

/-- The number nearest to `digits · 10 ^ exponent` under the given sign. -/
def ofDecimal (negative : Bool) (digits : Nat) (exponent : Int) : Binary64 :=
  if digits = 0 then ofMagnitude negative 0
  else if 400 < exponent then infinity negative
  else if exponent < -400 - Nat.log2 digits then ofMagnitude negative 0
  else if 0 ≤ exponent then
    ofMagnitude negative (nearestMagnitude (digits * Nat.pow 10 exponent.toNat) 1)
  else ofMagnitude negative (nearestMagnitude digits (Nat.pow 10 (-exponent).toNat))

/-- The natural number that a run of decimal digits denotes, after the digits already read. -/
def decimalValue (start : Nat) (digits : List Char) : Nat :=
  digits.foldl (fun value c ↦ 10 * value + (c.toNat - '0'.toNat)) start

private def exponentPart? : List Char → Option Int
  | [] => some 0
  | mark :: rest =>
    if mark = 'e' ∨ mark = 'E' then
      let (negative, digits) := match rest with
        | '-' :: tail => (true, tail)
        | '+' :: tail => (false, tail)
        | tail => (false, tail)
      if digits.isEmpty || !digits.all Char.isDigit then none
      else
        let value : Int := decimalValue 0 digits
        some (if negative then -value else value)
    else none

private def unsignedDecimal? (text : List Char) : Option (Nat × Int) :=
  let whole := text.takeWhile Char.isDigit
  let afterWhole := text.dropWhile Char.isDigit
  let (places, rest) := match afterWhole with
    | '.' :: tail => (tail.takeWhile Char.isDigit, tail.dropWhile Char.isDigit)
    | tail => ([], tail)
  if whole.isEmpty && places.isEmpty then none
  else (exponentPart? rest).map fun exponent ↦
    (decimalValue (decimalValue 0 whole) places, exponent - places.length)

/-- Reads a decimal text; `none` when the text has another form. -/
def parse? (text : List Char) : Option Binary64 :=
  let (negative, body) := match text with
    | '-' :: rest => (true, rest)
    | '+' :: rest => (false, rest)
    | rest => (false, rest)
  let word := body.map Char.toLower
  if word = "inf".toList ∨ word = "infinity".toList then some (infinity negative)
  else if word = "nan".toList then
    some (if negative then ofMagnitude true (infiniteMagnitude + 0x8000000000000) else nan)
  else (unsignedDecimal? body).map fun (digits, exponent) ↦ ofDecimal negative digits exponent

end LayeredConfig.Binary64
