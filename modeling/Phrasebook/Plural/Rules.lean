import Phrasebook.Language
import Phrasebook.Number.Plain
import Phrasebook.Number.Reading
import Phrasebook.Plural.Category

/-!
# Plural rules

A rule gives a category when one of its alternatives holds, and an alternative is a list of
relations that all hold. The relations are about the operands of a number, which are read off its
shortest positional text.
-/

namespace Phrasebook.Plural

/-- What plural rules ask of a number: its integer part, the count of its fraction digits and these
digits as a number. Not-a-number has no relation to any number. -/
structure Operands where
  isNumber : Bool := true
  integer : Nat
  places : Nat := 0
  fraction : Nat := 0
  deriving DecidableEq, Repr

/-- The largest integer part that is told apart from larger ones. -/
def integerLimit : Nat := Nat.pow 2 64 - 1

/-- The operands of the size of a number. -/
def Operands.of (x : Binary64) : Operands :=
  match x with
  | .nan => { isNumber := false, integer := 0 }
  | .infinite _ => { integer := integerLimit }
  | .finite _ m e =>
    let digits := shortestText (.finite false m e)
    let (whole, rest) := spanDigits digits
    let places := rest.drop 1
    { integer := min (digitsValue whole) integerLimit
      places := places.length
      fraction := digitsValue places }

inductive Operand where
  | number
  | integer
  | places
  | fraction
  deriving DecidableEq

/-- An operand, or its remainder by `modulus` if that is not zero. -/
structure Term where
  operand : Operand
  modulus : Nat := 0
  deriving DecidableEq

namespace Term

/-- The number itself. -/
def n : Term := { operand := .number }

/-- The integer part. -/
def i : Term := { operand := .integer }

/-- The count of fraction digits. -/
def v : Term := { operand := .places }

/-- The fraction digits. -/
def f : Term := { operand := .fraction }

end Term

/-- The operand's remainder. -/
def Term.mod (t : Term) (modulus : Nat) : Term :=
  { t with modulus := modulus }

/-- A term and ranges: it lies in one of them if `inside`, otherwise in none. -/
structure Relation where
  term : Term
  inside : Bool
  ranges : List (Nat × Nat)
  deriving DecidableEq

/-- The term lies in one of the ranges. -/
def Relation.within (t : Term) (ranges : List (Nat × Nat)) : Relation := ⟨t, true, ranges⟩

/-- The term lies in none of the ranges. -/
def Relation.outside (t : Term) (ranges : List (Nat × Nat)) : Relation := ⟨t, false, ranges⟩

/-- The value of a term, unless the number is none or its own value is asked for and is no
integer. -/
def Term.value? (t : Term) (o : Operands) : Option Nat :=
  let base := match t.operand with
    | .number => if o.isNumber ∧ o.places = 0 then some o.integer else none
    | .integer => some o.integer
    | .places => some o.places
    | .fraction => some o.fraction
  if t.modulus = 0 then base else base.map (· % t.modulus)

def Relation.holds (r : Relation) (o : Operands) : Bool :=
  (match r.term.value? o with
    | some k => r.ranges.any fun (low, high) => low ≤ k && k ≤ high
    | none => false) == r.inside

/-- Categories with the alternatives under which they apply; the first that applies counts. -/
abbrev Rules := List (Category × List (List Relation))

/-- The category that the rules give. -/
def Rules.category (rules : Rules) (o : Operands) : Category :=
  ((rules.find? fun (_, alternatives) => alternatives.any fun relations =>
    relations.all (·.holds o)).map (·.1)).getD .other

end Phrasebook.Plural
