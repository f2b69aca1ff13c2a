import Phrasebook.Text.Blank
import Phrasebook.Text.Casing

/-!
# Settings

What a phrase book is set up with. Words for the plural strategy and the message syntax are read
without regard to letter case and surrounding blanks.
-/

namespace Phrasebook

/-- How the name of a text depends on a count. -/
inductive PluralStrategy where
  | suffix
  | cldr
  deriving DecidableEq, Repr

/-- How placeholders are written in a text. -/
inductive MessageSyntax where
  | mustache
  | icu
  deriving DecidableEq, Repr

/-- A word that names no strategy or no syntax, as it was compared. -/
inductive WordError where
  | strategy (word : String)
  | messageSyntax (word : String)
  deriving DecidableEq, Repr

def WordError.message : WordError → String
  | strategy word => "unknown pluralization strategy '" ++ word ++ "'"
  | messageSyntax word => "unknown message format '" ++ word ++ "'"

/-- The form in which words of the settings are compared. -/
def settingWord (text : String) : String :=
  Text.lower (Text.trim text)

namespace PluralStrategy

def word : PluralStrategy → String
  | suffix => "suffix"
  | cldr => "cldr"

/-- The strategy of exactly this word. -/
def ofWord? (w : String) : Option PluralStrategy :=
  [suffix, cldr].find? (·.word == w)

def parse (text : String) : Except WordError PluralStrategy :=
  match ofWord? (settingWord text) with
  | some s => .ok s
  | none => .error (.strategy (settingWord text))

end PluralStrategy

namespace MessageSyntax

def word : MessageSyntax → String
  | mustache => "mustache"
  | icu => "icu"

/-- The syntax of exactly this word. -/
def ofWord? (w : String) : Option MessageSyntax :=
  [mustache, icu].find? (·.word == w)

def parse (text : String) : Except WordError MessageSyntax :=
  match ofWord? (settingWord text) with
  | some s => .ok s
  | none => .error (.messageSyntax (settingWord text))

end MessageSyntax

/-- Plural strategy and the ending of plural names under the suffix strategy. -/
structure PluralSettings where
  strategy : PluralStrategy := .suffix
  ending : String := "_plural"
  deriving DecidableEq, Repr

/-- The settings of a phrase book. An empty locale stands for a missing one. -/
structure Settings where
  locale : String := ""
  fallback : Option String := none
  defaultSpace : Option String := none
  saveMissing : Bool := false
  debug : Bool := false
  plural : PluralSettings := {}
  messageSyntax : MessageSyntax := .mustache
  escapeHtml : Bool := true
  deriving DecidableEq, Repr

end Phrasebook
