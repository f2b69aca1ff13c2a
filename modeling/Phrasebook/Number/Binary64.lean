/-!
# Binary floating point taken apart

`Binary64.ofFloat` reads sign, mantissa and exponent of a 64-bit number from its bits;
`Binary64.magnitude` is the exact rational that mantissa and exponent stand for.
-/

namespace Phrasebook

/-- A 64-bit binary number; the finite ones stand for `± mantissa * 2 ^ exponent`. -/
inductive Binary64 where
  | finite (negative : Bool) (mantissa : Nat) (exponent : Int)
  | infinite (negative : Bool)
  | nan
  deriving DecidableEq, Repr

namespace Binary64

/-- The parts of the number with these bits. -/
def ofBits (bits : Nat) : Binary64 :=
  let negative := bits / Nat.pow 2 63 % 2 == 1
  let exponent : Nat := bits / Nat.pow 2 52 % Nat.pow 2 11
  let fraction : Nat := bits % Nat.pow 2 52
  if exponent = 2047 then (if fraction = 0 then .infinite negative else .nan)
  else if exponent = 0 then .finite negative fraction (-1074)
  else .finite negative (Nat.pow 2 52 + fraction) (exponent - 1075)

def ofFloat (x : Float) : Binary64 :=
  ofBits x.toBits.toNat

/-- `mantissa * 2 ^ exponent` as a fraction, not reduced. -/
def fraction (mantissa : Nat) (exponent : Int) : Nat × Nat :=
  (mantissa * Nat.pow 2 exponent.toNat, Nat.pow 2 (-exponent).toNat)

/-- The exact size of a finite number, without its sign. -/
def magnitude (mantissa : Nat) (exponent : Int) : Rat :=
  mkRat (fraction mantissa exponent).1 (fraction mantissa exponent).2

/-- The size of a number without a fraction part, and `none` for every other number. -/
def natAbs? : Binary64 → Option Nat
  | finite _ m e =>
    let (num, den) := fraction m e
    if num % den = 0 then some (num / den) else none
  | _ => none

/-- Whether the sign bit of a finite or infinite number is set. -/
def isNegative : Binary64 → Bool
  | finite negative _ _ => negative
  | infinite negative => negative
  | nan => false

end Binary64

end Phrasebook
