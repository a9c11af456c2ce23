import SqlCatalog.Decimal.Binary64

/-!
# The shortest decimal that reads back

A finite floating-point number stands for all reals that are nearer to it than to its
neighbours, together with the two ends of that interval when its significand is even. Of the
decimals in the interval this module finds one with the fewest digits, and among those the one
nearest to the number. With `j` fixed, the multiples of `10 ^ j` form a grid; if any point of the
grid lies in the interval then so does one of the two next to the number, so only those two are
tried, on ever finer grids.

## Main definitions

* `Rounding` is the interval of a number, in units small enough to make its ends integers.
* `Rounding.shortest` is the integer `d` and the power `j` of the decimal `d * 10 ^ j`.
* `positional` writes `d * 10 ^ j` without an exponent.
* `Binary64.text` is the text of a number.
-/

namespace SqlCatalog

/-- The interval of reals that round to a number: `low / unit` to `high / unit` around
`middle / unit`, with its ends if `closed`. -/
structure Rounding where
  low : Nat
  middle : Nat
  high : Nat
  unit : Nat
  closed : Bool

namespace Rounding

/-- The interval of a finite number. -/
def ofBinary64 (x : Binary64) : Rounding :=
  let m := x.significand
  let up := Nat.pow 2 (x.exponent - 2).toNat
  { low := (4 * m - if x.isBinadeStart then 1 else 2) * up
    middle := 4 * m * up
    high := (4 * m + 2) * up
    unit := Nat.pow 2 (2 - x.exponent).toNat
    closed := m % 2 == 0 }

/-- Whether `d * 10 ^ j` lies in the interval. -/
def holds (r : Rounding) (d : Nat) (j : Int) : Bool :=
  let point := d * Nat.pow 10 j.toNat * r.unit
  let scale := Nat.pow 10 (-j).toNat
  if r.closed then r.low * scale ≤ point && point ≤ r.high * scale
  else r.low * scale < point && point < r.high * scale

/-- The grid point at or below the number. -/
def floorAt (r : Rounding) (j : Int) : Nat :=
  r.middle * Nat.pow 10 (-j).toNat / (Nat.pow 10 j.toNat * r.unit)

/-- Twice the distance from the grid point below is at least the width of the grid. -/
def roundsUp (r : Rounding) (j : Int) : Bool :=
  let width := Nat.pow 10 j.toNat * r.unit
  width ≤ 2 * (r.middle * Nat.pow 10 (-j).toNat % width)

/-- The neighbour of the number on the grid of `10 ^ j` that lies in the interval; of two the
nearer, and the upper one if they are equally near. -/
def pick? (r : Rounding) (j : Int) : Option Nat :=
  let d := r.floorAt j
  match r.holds d j, r.holds (d + 1) j with
  | true, true => some (if r.roundsUp j then d + 1 else d)
  | true, false => some d
  | false, true => some (d + 1)
  | false, false => none

/-- The first grid with a point in the interval, among `count` grids from `10 ^ j` down. -/
def search (r : Rounding) (j : Int) : Nat → Nat × Int
  | 0 => (r.floorAt j, j)
  | count + 1 =>
    match r.pick? j with
    | some d => (d, j)
    | none => search r (j - 1) count

/-- The number of decimal digits before the point, as a bound on where the digits begin. -/
def leadingPower (r : Rounding) : Int :=
  ((Nat.toDigits 10 r.middle).length : Int) - ((Nat.toDigits 10 r.unit).length : Int) + 1

/-- The decimal `d * 10 ^ j` of fewest digits in the interval. Seventeen digits always suffice. -/
def shortest (r : Rounding) : Nat × Int := r.search r.leadingPower 20

end Rounding

/-- The number `d * 10 ^ j` in digits with a point and without an exponent. -/
def positional (d : Nat) (j : Int) : String :=
  let digits := Nat.toDigits 10 d
  if 0 ≤ j then String.ofList (digits ++ List.replicate j.toNat '0')
  else
    let places := (-j).toNat
    let padded := List.replicate (places + 1 - digits.length) '0' ++ digits
    let whole := padded.take (padded.length - places)
    String.ofList (whole ++ '.' :: padded.drop (padded.length - places))

/-- The text of a number: the shortest decimal that reads back, a whole number without a point,
zero with its sign, and a word for what has no digits. -/
def Binary64.text (x : Binary64) : String :=
  if x.isNaN then "NaN"
  else
    let sign := if x.isNegative then "-" else ""
    if x.isInfinite then sign ++ "inf"
    else if x.isZero then sign ++ "0"
    else
      let d := (Rounding.ofBinary64 x).shortest
      sign ++ positional d.1 d.2

end SqlCatalog
