/-!
# Reading decimal texts

`readFloat?` reads an optional sign and digits with an optional point and exponent, or one of the
words for infinity and not-a-number in any letter case.
-/

namespace Phrasebook

/-- The value of a run of ASCII digits. -/
def digitsValue (cs : List Char) : Nat :=
  cs.foldl (fun n c => 10 * n + (c.toNat - 48)) 0

/-- The leading ASCII digits and the rest. -/
def spanDigits (cs : List Char) : List Char × List Char :=
  cs.span Char.isDigit

/-- The value of a text of ASCII digits, at least one. -/
def readDigits? (cs : List Char) : Option Nat :=
  if !cs.isEmpty && cs.all Char.isDigit then some (digitsValue cs) else none

/-- A sign and the text after it; no sign counts as plus. -/
def spanSign : List Char → Bool × List Char
  | '-' :: cs => (true, cs)
  | '+' :: cs => (false, cs)
  | cs => (false, cs)

/-- The exponent at the end of a decimal text; an empty text stands for zero. -/
def readExponent? : List Char → Option Int
  | [] => some 0
  | c :: cs =>
    if c = 'e' ∨ c = 'E' then
      let (negative, rest) := spanSign cs
      (readDigits? rest).map fun n => if negative then -(n : Int) else n
    else none

/-- The number nearest to `mantissa * 10 ^ exponent`. Exponents far out of range are settled
without computing the power. -/
def floatOfDecimal (mantissa : Nat) (exponent : Int) : Float :=
  let size := exponent + (Nat.toDigits 10 mantissa).length
  if mantissa = 0 ∨ size < -400 then 0.0
  else if 400 < size then Float.ofScientific 1 false 400
  else Float.ofScientific mantissa (exponent < 0) exponent.natAbs

/-- Reads a number without a sign. -/
def readUnsigned? (cs : List Char) : Option Float :=
  let word := String.ofList (cs.map Char.toLower)
  if word = "inf" ∨ word = "infinity" then some (Float.ofScientific 1 false 400)
  else if word = "nan" then some (0.0 / 0.0)
  else
    let (whole, rest) := spanDigits cs
    let (places, rest) := match rest with
      | '.' :: after => spanDigits after
      | _ => ([], rest)
    if whole.isEmpty && places.isEmpty then none
    else (readExponent? rest).map fun e =>
      floatOfDecimal (digitsValue (whole ++ places)) (e - places.length)

/-- The number that a decimal text denotes, rounded to the nearest. -/
def readFloat? (cs : List Char) : Option Float :=
  let (negative, rest) := spanSign cs
  (readUnsigned? rest).map fun x => if negative then -x else x

end Phrasebook
