import Phrasebook.Language
import Phrasebook.Number.Fixed
import Phrasebook.Number.Reading

/-!
# Numbers in the style of a locale

Digits are grouped by three and separated the way a language does it. `fixed` writes a given number
of places, `trimmed` leaves out zeros at the end of the fraction; `currency`, `percent` and
`compact` add a symbol, a percent sign or a unit.
-/

namespace Phrasebook

/-- Separators of a language, and whether symbols stand behind the number. -/
structure NumberStyle where
  group : List Char
  decimal : List Char
  symbolAfter : Bool
  deriving DecidableEq, Repr

/-- The space that does not break a line. -/
def noBreakSpace : Char := '\u00a0'

/-- The style of a locale, by the language in its first subtag. -/
def NumberStyle.of (locale : String) : NumberStyle :=
  let language := (LanguageTag.firstSubtag locale).toList.map Char.toLower
  if ["de", "es", "it", "pt", "nl"].any (·.toList == language) then ⟨['.'], [','], true⟩
  else if language = ['f', 'r'] then ⟨['\u202f'], [','], true⟩
  else ⟨[','], ['.'], false⟩

/-- A number to be written: an exact value, or one that has no digits. -/
inductive Quantity where
  | exact (q : Rat)
  | infinite (negative : Bool)
  | nan
  deriving DecidableEq

namespace Quantity

def ofFloat (x : Float) : Quantity :=
  match Binary64.ofFloat x with
  | .finite negative m e =>
    .exact (if negative then -Binary64.magnitude m e else Binary64.magnitude m e)
  | .infinite negative => .infinite negative
  | .nan => .nan

def isNegative : Quantity → Bool
  | exact q => q < 0
  | infinite negative => negative
  | nan => false

/-- The size, without the sign. -/
def abs : Quantity → Quantity
  | exact q => .exact q.abs
  | infinite _ => .infinite false
  | nan => .nan

/-- Whether the size is at least `bound`. -/
def reaches (bound : Nat) : Quantity → Bool
  | exact q => (bound : Rat) ≤ q.abs
  | infinite _ => true
  | nan => false

/-- Whether the size is below `bound`. -/
def isBelow (bound : Nat) : Quantity → Bool
  | exact q => q.abs < (bound : Rat)
  | _ => false

/-- The digits of the size, rounded to `places` places. -/
def digits (places : Nat) : Quantity → Decimal.Fixed
  | exact q => .ofRat q.abs places
  | infinite _ => ⟨['i', 'n', 'f'], []⟩
  | nan => ⟨['N', 'a', 'N'], []⟩

end Quantity

namespace NumberStyle

/-- The digits in groups of three from the right, with separators between the groups. -/
def groupDigits (s : NumberStyle) : List Char → List Char
  | [] => []
  | d :: ds =>
    let rest := groupDigits s ds
    if ds ≠ [] ∧ ds.length % 3 = 0 then d :: s.group ++ rest else d :: rest

/-- Sign, grouped digits and fraction. The sign is left out where every digit is zero. -/
def write (s : NumberStyle) (negative : Bool) (f : Decimal.Fixed) (fraction : List Char) :
    List Char :=
  (if negative && f.isNonzero then ['-'] else []) ++ s.groupDigits f.whole ++
    (if fraction.isEmpty then [] else s.decimal ++ fraction)

/-- The number with exactly `places` places. -/
def fixed (s : NumberStyle) (places : Nat) (x : Quantity) : List Char :=
  let f := x.digits places
  s.write x.isNegative f f.fraction

/-- The fraction digits without zeros at the end. -/
def trimZeros (fraction : List Char) : List Char :=
  (fraction.reverse.dropWhile (· == '0')).reverse

/-- The number with at most `places` places. -/
def trimmed (s : NumberStyle) (places : Nat) (x : Quantity) : List Char :=
  let f := x.digits places
  s.write x.isNegative f (trimZeros f.fraction)

/-- Symbol and places of a currency; an unknown code is its own symbol. -/
def currencySymbol (code : List Char) : List Char × Nat :=
  if code = "USD".toList then (['$'], 2)
  else if code = "EUR".toList then (['€'], 2)
  else if code = "GBP".toList then (['£'], 2)
  else if code = "JPY".toList then (['¥'], 0)
  else (code, 2)

/-- The amount with its currency. A space divides the number from a symbol behind it or from a word
in front of it. -/
def currency (s : NumberStyle) (code : List Char) (x : Quantity) : List Char :=
  let (symbol, places) := currencySymbol (code.map Char.toUpper)
  let number := s.fixed places x.abs
  let sign := if x.isNegative then ['-'] else []
  if s.symbolAfter then sign ++ number ++ noBreakSpace :: symbol
  else if 1 < symbol.length ∧ symbol.all Char.isAlpha then
    sign ++ symbol ++ noBreakSpace :: number
  else sign ++ symbol ++ number

/-- The number with two places and a percent sign. -/
def percent (s : NumberStyle) (x : Quantity) : List Char :=
  s.fixed 2 x ++ (if s.symbolAfter then [noBreakSpace] else []) ++ ['%']

/-- The unit for a number of this size and the letter for it. -/
def compactUnit (x : Quantity) : Nat × List Char :=
  if x.reaches 1000000000 then (1000000000, ['B'])
  else if x.reaches 1000000 then (1000000, ['M'])
  else if x.reaches 1000 then (1000, ['K'])
  else (1, [])

/-- The number in thousands, millions or billions; `quotient` divides it by the unit. One place is
written below ten. -/
def compactWith (s : NumberStyle) (quotient : Nat → Quantity) (x : Quantity) : List Char :=
  let (unit, letter) := compactUnit x
  let scaled := quotient unit
  s.trimmed (if scaled.isBelow 10 then 1 else 0) scaled ++ letter

/-- The number in thousands, millions or billions, divided in floating point. -/
def compact (s : NumberStyle) (x : Float) : List Char :=
  s.compactWith (fun unit => Quantity.ofFloat (x / Float.ofScientific unit false 0))
    (Quantity.ofFloat x)

end NumberStyle

end Phrasebook
