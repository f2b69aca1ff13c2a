import Phrasebook.Settings
import Phrasebook.Language

/-!
# Valid settings

`Settings.validate` reports the first fault in a fixed order: locale, fallback, default namespace,
plural ending.
-/

namespace Phrasebook

inductive LocaleField where
  | locale
  | fallback
  deriving DecidableEq, Repr

def LocaleField.name : LocaleField → String
  | locale => "locale"
  | fallback => "fallback_locale"

/-- What is wrong with settings or with the file they are read from. -/
inductive SettingsError where
  | noLocale
  | badLocale (field : LocaleField) (text : String) (cause : LanguageError)
  | emptySpace
  | separatorInSpace (space : String)
  | emptyPluralEnding
  | unknownExtension (path : String)
  deriving DecidableEq, Repr

namespace SettingsError

def reason : SettingsError → String
  | noLocale => "locale is required"
  | badLocale field text cause =>
    field.name ++ " '" ++ text ++ "' is not a valid locale: " ++ cause.message
  | emptySpace => "default_namespace cannot be empty"
  | separatorInSpace space => "default_namespace '" ++ space ++ "' cannot contain ':' or '.'"
  | emptyPluralEnding => "pluralization.plural_suffix cannot be empty"
  | unknownExtension path => "unsupported settings file extension: " ++ path

def message (e : SettingsError) : String :=
  "Configuration error: " ++ e.reason

end SettingsError

namespace Settings

def validateLocale (field : LocaleField) (text : String) : Except SettingsError Unit :=
  match LanguageTag.parse text with
  | .ok _ => .ok ()
  | .error cause => .error (.badLocale field text cause)

def validateSpace (space : String) : Except SettingsError Unit :=
  if Text.trim space = "" then .error .emptySpace
  else if space.toList.any fun c => c = ':' || c = '.' then .error (.separatorInSpace space)
  else .ok ()

/-- Accepts settings that a phrase book can be opened with. -/
def validate (s : Settings) : Except SettingsError Unit := do
  if Text.trim s.locale = "" then throw .noLocale
  validateLocale .locale s.locale
  match s.fallback with
  | some fallback => validateLocale .fallback fallback
  | none => pure ()
  match s.defaultSpace with
  | some space => validateSpace space
  | none => pure ()
  if s.plural.ending = "" then throw .emptyPluralEnding

end Settings

end Phrasebook
