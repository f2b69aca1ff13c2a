import Phrasebook.Settings
import Phrasebook.Dictionary

/-!
# Settings from the environment

Variables of the environment take the place of settings. A word that cannot be read leaves its
setting alone; an empty fallback or default namespace removes it.
-/

namespace Phrasebook.Settings

/-- Reads a switch written as a word. -/
def switch? (text : String) : Option Bool :=
  let word := settingWord text
  if word ∈ ["1", "true", "yes", "on"] then some true
  else if word ∈ ["0", "false", "no", "off"] then some false
  else none

/-- A text that counts as absent when empty. -/
def nonEmpty (text : String) : Option String :=
  if text = "" then none else some text

/-- The settings with what `lookup` finds in place of their own. -/
def override (lookup : String → Option String) (s : Settings) : Settings where
  locale := (lookup "BAKERY_LOCALE").getD s.locale
  fallback := ((lookup "BAKERY_FALLBACK_LOCALE").map nonEmpty).getD s.fallback
  defaultSpace := ((lookup "BAKERY_DEFAULT_NAMESPACE").map nonEmpty).getD s.defaultSpace
  saveMissing := ((lookup "BAKERY_SAVE_MISSING").bind switch?).getD s.saveMissing
  debug := s.debug
  plural :=
    { s.plural with
      strategy := ((lookup "BAKERY_PLURALIZATION").bind fun text =>
        (PluralStrategy.parse text).toOption).getD s.plural.strategy }
  messageSyntax := ((lookup "BAKERY_MESSAGE_FORMAT").bind fun text =>
    (MessageSyntax.parse text).toOption).getD s.messageSyntax
  escapeHtml := s.escapeHtml

end Phrasebook.Settings
