import LayeredConfig.Binary64.Basic

/-!
# The shortest decimal of a number

Each positive finite number owns an interval of reals that round to it. On the grid of multiples of
`10 ^ k`, the two neighbours of the number are tried from coarse grids to fine ones; the first grid
with a neighbour inside the interval gives the digits, and of two such neighbours the nearer is
taken. Which of two is taken that are equally near is a matter of the written form. If any point of
a grid lies in the interval then a neighbour of the number does, so no shorter decimal reads back.
-/

namespace LayeredConfig.Binary64

/-- A decimal magnitude `digits · 10 ^ exponent`. -/
structure Decimal where
  digits : Nat
  exponent : Int
deriving DecidableEq, Repr

/-- Which of two equally near decimals is taken. -/
inductive Tie where
  | greater
  | even
deriving DecidableEq, Repr

private structure Rounding where
  low : Nat
  value : Nat
  high : Nat
  denominator : Nat
  closed : Bool

-- The interval of reals that round to `x`. Below a power of two the lower gap is half as wide.
private def rounding (x : Binary64) : Rounding :=
  let m := x.significand
  let below := if x.fraction = 0 ∧ 1 < x.exponentField then 1 else 2
  let q := x.scale - 2
  let up := if 0 ≤ q then 1 <<< q.toNat else 1
  let down := if 0 ≤ q then 1 else 1 <<< (-q).toNat
  { low := (4 * m - below) * up, value := 4 * m * up, high := (4 * m + 2) * up,
    denominator := down, closed := m % 2 = 0 }

-- Whether `point · 10 ^ k`, written over the interval's denominator, rounds to the number.
private def Rounding.holds (r : Rounding) (tens denominator point : Nat) : Bool :=
  let p := point * tens
  if r.closed then r.low * denominator ≤ p && p ≤ r.high * denominator
  else r.low * denominator < p && p < r.high * denominator

/-- The neighbour on a grid that lies nearer to `(floor + rest / unit)`. -/
def Tie.nearer (tie : Tie) (floor rest unit : Nat) : Nat :=
  if 2 * rest < unit then floor
  else if unit < 2 * rest then floor + 1
  else match tie with
    | greater => floor + 1
    | even => floor + floor % 2

-- The neighbour of the number on the grid of `10 ^ k` that reads back, the nearer of two.
private def Rounding.onGrid? (r : Rounding) (tie : Tie) (k : Int) : Option Nat :=
  let tens := (if 0 ≤ k then Nat.pow 10 k.toNat else 1) * r.denominator
  let denominator := if 0 ≤ k then 1 else Nat.pow 10 (-k).toNat
  let value := r.value * denominator
  let floor := value / tens
  match r.holds tens denominator floor, r.holds tens denominator (floor + 1) with
  | true, true => some (tie.nearer floor (value % tens) tens)
  | true, false => some floor
  | false, true => some (floor + 1)
  | false, false => none

-- The first hit on the grids of `10 ^ k`, `10 ^ (k - 1)` and so on, trying `fuel` of them.
private def Rounding.search (r : Rounding) (tie : Tie) : (fuel : Nat) → Int → Option Decimal
  | 0, _ => none
  | fuel + 1, k =>
    match r.onGrid? tie k with
    | some digits => some ⟨digits, k⟩
    | none => search r tie fuel (k - 1)

/-- The shortest decimal that rounds to the magnitude of a finite number; zero is `0 · 10 ^ 0`. -/
def shortest (tie : Tie) (x : Binary64) : Decimal :=
  if x.isZero then ⟨0, 0⟩
  else
    let top : Int := (Nat.log2 x.significand : Int) + x.scale + 1
    let start := top * 30103 / 100000 + 1
    (rounding x).search tie 25 start |>.getD ⟨x.significand, 0⟩

end LayeredConfig.Binary64
