import Phrasebook.Text.Split

/-!
# Language identifiers

`LanguageTag.parse` reads a language with optional script, region and variants. Letter case and the
choice between hyphen and underscore do not matter.
-/

namespace Phrasebook

/-- A language identifier; `language` is in lower case and empty when undetermined. -/
structure LanguageTag where
  language : String
  script : Option String := none
  region : Option String := none
  variants : List String := []
  deriving DecidableEq, Repr

/-- What is wrong with a language identifier. -/
inductive LanguageError where
  | language
  | subtag
  deriving DecidableEq, Repr

def LanguageError.message : LanguageError → String
  | language => "Parser error: The given language subtag is invalid"
  | subtag => "Parser error: Invalid subtag"

namespace LanguageTag

def isSeparator (c : Char) : Bool :=
  c = '-' || c = '_'

/-- The parts between hyphens and underscores. -/
def subtags (locale : List Char) : List (List Char) :=
  Text.piecesBy isSeparator locale

/-- The part before the first hyphen or underscore. -/
def firstSubtag (locale : String) : String :=
  String.ofList (locale.toList.takeWhile fun c => !isSeparator c)

/-- Two to eight letters, but not four. -/
def isLanguage (cs : List Char) : Bool :=
  2 ≤ cs.length && cs.length ≤ 8 && cs.length != 4 && cs.all Char.isAlpha

def isScript (cs : List Char) : Bool :=
  cs.length = 4 && cs.all Char.isAlpha

def isRegion (cs : List Char) : Bool :=
  (cs.length = 2 && cs.all Char.isAlpha) || (cs.length = 3 && cs.all Char.isDigit)

/-- Five to eight letters and digits, or four characters of which the first is a digit or the last
three are letters and digits. -/
def isVariant (cs : List Char) : Bool :=
  cs.all (fun c => 0 < c.toNat && c.toNat < 128) &&
    ((5 ≤ cs.length && cs.length ≤ 8 && cs.all Char.isAlphanum) ||
      (cs.length = 4 && ((cs.head?.any Char.isDigit) || (cs.drop 1).all Char.isAlphanum)))

/-- The head if it belongs to the class, and the rest. -/
def takeIf (p : List Char → Bool) : List (List Char) → Option String × List (List Char)
  | [] => (none, [])
  | s :: rest => if p s then (some (String.ofList s), rest) else (none, s :: rest)

/-- Reads a language identifier. -/
def parse (locale : String) : Except LanguageError LanguageTag :=
  match subtags (locale.toList.map Char.toLower) with
  | [] => .error .language
  | first :: rest =>
    if isLanguage first then
      let (script, rest) := takeIf isScript rest
      let (region, rest) := takeIf isRegion rest
      if rest.all isVariant then
        let language := String.ofList first
        .ok ⟨if language = "und" then "" else language, script, region, rest.map String.ofList⟩
      else .error .subtag
    else .error .language

end LanguageTag

end Phrasebook
