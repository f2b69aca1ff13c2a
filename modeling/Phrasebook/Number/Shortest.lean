import Phrasebook.Number.Binary64

/-!
# Shortest decimals

`shortest` finds the decimal with the fewest digits that reads back as a given binary number, and
of those the nearest to it. The search goes from coarse to fine decimal grids; on each grid only
the two neighbours of the number can read back if any point does.
-/

namespace Phrasebook.Decimal

/-- Which of two equally near decimals is taken. -/
inductive Tie where
  | up
  | even
  deriving DecidableEq

/-- The numbers that read back as `mantissa * 2 ^ exponent`, in quarters of its last place. The
ends belong to them when `closed`. -/
structure Interval where
  low : Nat
  value : Nat
  high : Nat
  closed : Bool

/-- A power of two has its lower neighbour at half the distance, unless it is the smallest normal
number or below. -/
def Interval.around (mantissa : Nat) (exponent : Int) : Interval where
  low := if mantissa = Nat.pow 2 52 ∧ -1074 < exponent then 4 * mantissa - 1 else 4 * mantissa - 2
  value := 4 * mantissa
  high := 4 * mantissa + 2
  closed := mantissa % 2 == 0

/-- Whether `point` lies in the interval, when a step of the grid is `g` and a quarter of the last
place is `u`. -/
def Interval.holds (i : Interval) (g u point : Nat) : Bool :=
  if i.closed then i.low * u ≤ point * g && point * g ≤ i.high * u
  else i.low * u < point * g && point * g < i.high * u

/-- The point of the grid of step `10 ^ k` that reads back and is nearest, if one reads back. -/
def onGrid (tie : Tie) (i : Interval) (exponent k : Int) : Option Nat :=
  let g := Nat.pow 10 k.toNat * Nat.pow 2 (2 - exponent).toNat
  let u := Nat.pow 2 (exponent - 2).toNat * Nat.pow 10 (-k).toNat
  let below := i.value * u / g
  let above := below + 1
  match i.holds g u below, i.holds g u above with
  | false, false => none
  | true, false => some below
  | false, true => some above
  | true, true =>
    let down := i.value * u - below * g
    let up := above * g - i.value * u
    if down < up then some below
    else if up < down then some above
    else match tie with
      | .up => some above
      | .even => if below % 2 = 0 then some below else some above

/-- Digits and decimal exponent of the shortest decimal that reads back as
`mantissa * 2 ^ exponent`; zero is `(0, 0)`. -/
def shortest (tie : Tie) (mantissa : Nat) (exponent : Int) : Nat × Int :=
  if mantissa = 0 then (0, 0) else
    let top : Int := (mantissa.log2 + 1 + exponent) * 30103 / 100000 + 2
    let i := Interval.around mantissa exponent
    ((List.range 24).findSome? fun (j : Nat) =>
      let k := top - j
      (onGrid tie i exponent k).map fun digits => (digits, k)).getD (0, 0)

end Phrasebook.Decimal
