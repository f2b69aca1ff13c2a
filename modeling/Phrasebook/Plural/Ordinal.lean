import Phrasebook.Plural.Cardinal
import Phrasebook.Text.Casing

/-!
# Ordinal categories

English tells first, second and third from the rest; other languages use their cardinal rules.
-/

namespace Phrasebook.Plural

/-- Whether the first subtag is `en`, in any letter case. -/
def isEnglish (locale : String) : Bool :=
  Text.asciiLower (LanguageTag.firstSubtag locale) == "en"

/-- The English form of the number `n` in an order: 1st, 2nd, 3rd, 4th, with 11th to 13th. -/
def englishOrdinal (n : Nat) : Category :=
  if n % 10 = 1 ∧ n % 100 ≠ 11 then .one
  else if n % 10 = 2 ∧ n % 100 ≠ 12 then .two
  else if n % 10 = 3 ∧ n % 100 ≠ 13 then .few
  else .other

/-- The ordinal category of the size of a number. -/
def ordinal (locale : String) (x : Float) : Category :=
  if isEnglish locale then
    match (Binary64.ofFloat x).natAbs? with
    | some n => englishOrdinal n
    | none => .other
  else cardinal locale x

end Phrasebook.Plural
