import Phrasebook.Plural.Cardinal
import Phrasebook.Settings

/-!
# Names that depend on a count

A text may exist under its name with an exact count, under a name for the plural category, or under
its plain name. `resolve` gives the name for the category, `resolveChecked` prefers an exact count
that exists.
-/

namespace Phrasebook.Plural

/-- What decided on a name. -/
inductive Choice where
  | category (c : Category)
  | singular
  | plural
  deriving DecidableEq, Repr

def Choice.keyword : Choice → String
  | category c => c.keyword
  | singular => "singular"
  | plural => "plural"

/-- A name to look up, what decided on it, and whether it is for an exact count. -/
structure Resolution where
  name : String
  choice : Option Choice
  exact : Bool
  deriving DecidableEq, Repr

/-- The name of the text for an exact count. -/
def exactName (name : String) (count : Float) : String :=
  name ++ "_" ++ plainNumber count

/-- The distance below which two counts are the same. -/
def epsilon : Float := Float.ofScientific 2220446049250313 true 31

/-- Whether the count equals a small number up to rounding. -/
def isNearly (count target : Float) : Bool :=
  (count - target).abs < epsilon

/-- The category of a count where only zero, one and two are told apart. -/
def countCategory (count : Float) : Category :=
  if count == 0.0 then .zero
  else if isNearly count 1.0 then .one
  else if isNearly count 2.0 then .two
  else .other

/-- The name for a count, whatever texts there are. -/
def resolve (s : PluralSettings) (locale name : String) (count : Float) : Resolution :=
  match s.strategy with
  | .suffix =>
    if isNearly count 1.0 then ⟨name, some .singular, false⟩
    else ⟨name ++ s.ending, some .plural, false⟩
  | .cldr =>
    let c := cardinal locale count
    ⟨name ++ "_" ++ c.keyword, some (.category c), false⟩

/-- The name for a count; the suffix strategy takes the name for the exact count if it exists. -/
def resolveChecked (s : PluralSettings) (locale name : String) (count : Float)
    (isPresent : String → Bool) : Resolution :=
  let exact := exactName name count
  if s.strategy = .suffix ∧ isPresent exact then
    ⟨exact, some (.category (countCategory count)), true⟩
  else resolve s locale name count

/-- The category that a strategy reports for a count. -/
def category (s : PluralSettings) (locale : String) (count : Float) : Category :=
  match s.strategy with
  | .suffix => countCategory count
  | .cldr => cardinal locale count

/-- The categories that whole numbers up to a hundred have, each with its first five numbers. -/
def samples (locale : String) : List (Category × List Nat) :=
  Category.all.filterMap fun c =>
    match (List.range 101).filter fun n => cardinal locale (Float.ofScientific n false 0) = c with
    | [] => none
    | ns => some (c, ns.take 5)

end Phrasebook.Plural
