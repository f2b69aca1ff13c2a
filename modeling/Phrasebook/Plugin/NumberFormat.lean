import Phrasebook.Plugin
import Phrasebook.Template.NumberToken

/-!
# Numbers in results

The plugin writes the number tokens of a rendered result in the style of its locale. Where the
context has no locale, the one that the plugin remembers is used: its option, or the locale of the
last change.
-/

namespace Phrasebook.NumberFormat

def info : PluginInfo where
  name := "number-format"
  kind := .formatter
  description := some "Formats numbers, currencies, and percentages"
  author := some "i18n-bakery"

/-- The locale before any other is known. -/
def initialLocale : String := "en"

/-- The locale to write numbers for, where `own` is the remembered one. -/
def localeFor (own locale : String) : String :=
  if locale = "" then own else locale

/-- What becomes of a rendered result. -/
def writeNumbers (own : String) (c : Context) : Outcome :=
  match c.result, c.vars with
  | some text, some vars =>
    if NumberToken.occursIn text.toList then
      match NumberToken.formatTokens (localeFor own c.locale) vars text with
      | some out => .text out
      | none => .panicked
    else .nothing
  | _, _ => .nothing

/-- The locale that a call tells the plugin to remember. -/
def newLocale? : Call → Option String
  | .init options => (Dictionary.find? "locale" options).bind Value.text?
  | .localeChange _ new => some new
  | _ => none

def respond (own : String) (call : Call) : Script :=
  match newLocale? call, call with
  | some locale, _ => .remember locale (.finish .nothing)
  | none, .after c => .finish (writeNumbers own c)
  | none, _ => .finish .nothing

def plugin : Plugin :=
  ⟨info, {}, initialLocale, respond⟩

end Phrasebook.NumberFormat
