/-!
# Plural categories
-/

namespace Phrasebook

/-- The six forms that languages distinguish by number. -/
inductive Category where
  | zero
  | one
  | two
  | few
  | many
  | other
  deriving DecidableEq, Repr

namespace Category

/-- Every category, from the fewest to the rest. -/
def all : List Category :=
  [zero, one, two, few, many, other]

/-- The word for a category in keys and messages. -/
def keyword : Category → String
  | zero => "zero"
  | one => "one"
  | two => "two"
  | few => "few"
  | many => "many"
  | other => "other"

end Category

end Phrasebook
