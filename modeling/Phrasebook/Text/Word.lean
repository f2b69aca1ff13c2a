import Phrasebook.Text.WordRanges
import Phrasebook.Text.DigitRanges

/-!
# Word characters and decimal digits

`isWord` holds for letters, marks, decimal digits, connector punctuation and join controls,
`isDigit` for the decimal digits of every script.
-/

namespace Phrasebook.Text

/-- Membership in one of the inclusive ranges. -/
def inRanges (ranges : List (Nat × Nat)) (n : Nat) : Bool :=
  ranges.any fun (first, last) => first ≤ n && n ≤ last

/-- A letter, digit or underscore of ASCII. -/
def isAsciiWord (n : Nat) : Bool :=
  (48 ≤ n && n ≤ 57) || (65 ≤ n && n ≤ 90) || n == 95 || (97 ≤ n && n ≤ 122)

/-- A character that names are made of. -/
def isWord (c : Char) : Bool :=
  if c.toNat < 128 then isAsciiWord c.toNat else inRanges wordRanges c.toNat

/-- A decimal digit of any script. -/
def isDigit (c : Char) : Bool :=
  inRanges digitRanges c.toNat

end Phrasebook.Text
