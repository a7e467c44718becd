import LayeredConfig.Binary64.Shortest

/-!
# Written forms of a number

A written form is its shortest digits, a rule for which of two equally near decimals is taken, a
rule for when the point is placed positionally and when an exponent is used, and a sign rule for
that exponent. The three forms of this library are `code` for generated assignments, `json` for the
JSON views, and `key` for a number that becomes a mapping key.
-/

namespace LayeredConfig.Binary64

/-- How a finite number is written. The point's position counts the digits before it, so that `1.5`
has position one and `0.05` has position minus one. -/
structure Layout where
  least : Int
  greatest : Int
  plus : Bool
  tie : Tie
deriving DecidableEq, Repr

namespace Layout

/-- Generated code: positional from `0.0001` and below `1e16`, no plus sign, a tie goes up. -/
def code : Layout := ⟨-3, 16, false, .greater⟩

/-- JSON: positional from `0.00001` and below `1e16`, a plus sign, a tie goes to the even digit. -/
def json : Layout := ⟨-4, 16, true, .even⟩

/-- Mapping keys: positional from `0.00001` and below `1e16`, no plus sign, a tie goes to the even
digit. -/
def key : Layout := ⟨-4, 16, false, .even⟩

/-- The text of a decimal magnitude. A text without an exponent always has a fraction. -/
def magnitude (layout : Layout) (d : Decimal) : List Char :=
  let digits := Nat.toDigits 10 d.digits
  let point : Int := digits.length + d.exponent
  if d.digits = 0 then ['0', '.', '0']
  else if 0 < point ∧ point ≤ layout.greatest then
    if 0 ≤ d.exponent then digits ++ List.replicate d.exponent.toNat '0' ++ ['.', '0']
    else digits.take point.toNat ++ '.' :: digits.drop point.toNat
  else if layout.least ≤ point ∧ point ≤ 0 then
    '0' :: '.' :: List.replicate (-point).toNat '0' ++ digits
  else
    let mantissa := match digits with
      | first :: second :: rest => first :: '.' :: second :: rest
      | short => short
    let power := point - 1
    let sign := if power < 0 then ['-'] else if layout.plus then ['+'] else []
    mantissa ++ 'e' :: sign ++ Nat.toDigits 10 power.natAbs

/-- The text of a finite number, a set sign bit being written also for zero. -/
def write (layout : Layout) (x : Binary64) : List Char :=
  (if x.isNegative then ['-'] else []) ++ layout.magnitude (x.shortest layout.tie)

end Layout

/-- The word for a number that is not finite. -/
def nonFiniteWord (x : Binary64) : String :=
  if x.isNaN then "NaN" else if x.isNegative then "-inf" else "inf"

end LayeredConfig.Binary64
