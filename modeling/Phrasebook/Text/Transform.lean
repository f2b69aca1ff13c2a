import Phrasebook.Text.Casing
import Phrasebook.Text.Split

/-!
# Changes of letter case

Four changes that a name can ask for by its ending: all capitals, all small letters, a capital at
the start, or a capital at the start of each word.
-/

namespace Phrasebook.Text

inductive Transform where
  | upper
  | lower
  | capitalize
  | title
  deriving DecidableEq, Repr

namespace Transform

/-- Every change, in the order in which endings are tried. -/
def all : List Transform :=
  [upper, lower, capitalize, title]

def word : Transform → String
  | upper => "upper"
  | lower => "lower"
  | capitalize => "capitalize"
  | title => "title"

def ofWord? (w : String) : Option Transform :=
  all.find? (·.word == w)

/-- The ending of a name that asks for the change. -/
def ending (t : Transform) : List Char :=
  '_' :: t.word.toList

/-- The text with its first character in upper case. -/
def capitalizeChars : List Char → List Char
  | [] => []
  | c :: cs => upperChar c ++ cs

/-- The changed text; words are what stands between spaces. -/
def applyChars : Transform → List Char → List Char
  | upper, cs => upperText cs
  | lower, cs => lowerText cs
  | capitalize, cs => capitalizeChars cs
  | title, cs => joinWith [' '] ((pieces ' ' cs).map capitalizeChars)

def apply (t : Transform) (text : String) : String :=
  String.ofList (t.applyChars text.toList)

/-- The text before `ending`, if the text ends in it. -/
def stripEnding? (ending cs : List Char) : Option (List Char) :=
  if ending.isSuffixOf cs then some (cs.take (cs.length - ending.length)) else none

/-- The name without the first ending that asks for a change, and the change. -/
def split? (name : String) : Option (String × Transform) :=
  all.findSome? fun t =>
    (stripEnding? t.ending name.toList).map fun base => (String.ofList base, t)

end Transform

end Phrasebook.Text
