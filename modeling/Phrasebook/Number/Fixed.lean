import Phrasebook.Number.Plain

/-!
# Fixed decimals

`roundHalfEven` rounds an exact fraction to the nearest natural number, a half going to the even
neighbour. `Decimal.Fixed.ofRat` rounds to a number of places and keeps integer and fraction digits
apart.
-/

namespace Phrasebook.Decimal

/-- The natural number nearest to `q ≥ 0`; of two equally near ones the even one. -/
def roundHalfEven (q : Rat) : Nat :=
  let n := q.num.natAbs / q.den
  let rest := 2 * (q.num.natAbs % q.den)
  if rest < q.den then n
  else if q.den < rest then n + 1
  else if n % 2 = 0 then n else n + 1

/-- The digits of `n`, with zeros in front up to `width`. -/
def paddedDigits (width n : Nat) : List Char :=
  let ds := natDigits n
  List.replicate (width - ds.length) '0' ++ ds

/-- Integer and fraction digits of a number that is not negative. -/
structure Fixed where
  whole : List Char
  fraction : List Char
  deriving DecidableEq, Repr

/-- `q ≥ 0` rounded to `places` places. -/
def Fixed.ofRat (q : Rat) (places : Nat) : Fixed :=
  let n := roundHalfEven (q * (Nat.pow 10 places : Nat))
  { whole := natDigits (n / Nat.pow 10 places)
    fraction := if places = 0 then [] else paddedDigits places (n % Nat.pow 10 places) }

/-- Whether a digit other than zero is written. -/
def Fixed.isNonzero (f : Fixed) : Bool :=
  (f.whole ++ f.fraction).any fun c => '1' ≤ c && c ≤ '9'

end Phrasebook.Decimal
