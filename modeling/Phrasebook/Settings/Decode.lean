import Phrasebook.Settings
import Phrasebook.Value

/-!
# Settings in documents

`Settings.decode?` fills settings from a document of any format. Fields may be missing, unknown
fields are passed over, and a known field that occurs twice or has the wrong shape makes the
document invalid. What counts as a text or a record is up to the format.
-/

namespace Phrasebook

/-- How the nodes of a format are read. -/
structure Reading (Node : Type) where
  text? : Node → Option String
  switch? : Node → Option Bool
  /-- A text, or nothing. -/
  optional? : Node → Option (Option String)
  /-- A word of a fixed set. -/
  word? : Node → Option String
  /-- The entries of a record with these field names, or more of them. -/
  record? : List String → Node → Option (List (String × Node))

namespace Reading

variable {Node α : Type}

/-- The entries of a record with these field names, none of which occurs twice. -/
def entries? (r : Reading Node) (fields : List String) (n : Node) :
    Option (List (String × Node)) := do
  let entries ← r.record? fields n
  let known := (entries.map (·.1)).filter fields.contains
  if known.eraseDups.length = known.length then some entries else none

/-- The value of a field, or `absent` where there is no such entry. -/
def field (entries : List (String × Node)) (name : String) (absent : α)
    (read? : Node → Option α) : Option α :=
  match entries.lookup name with
  | none => some absent
  | some n => read? n

end Reading

namespace Settings

variable {Node : Type}

def pluralFields : List String := ["strategy", "plural_suffix"]

/-- The plural settings that a node says. -/
def decodePlural? (r : Reading Node) (n : Node) : Option PluralSettings := do
  let entries ← r.entries? pluralFields n
  let absent : PluralSettings := {}
  let strategy ← Reading.field entries "strategy" absent.strategy fun n =>
    (r.word? n).bind PluralStrategy.ofWord?
  let ending ← Reading.field entries "plural_suffix" absent.ending r.text?
  some ⟨strategy, ending⟩

def fields : List String :=
  ["locale", "fallback_locale", "default_namespace", "save_missing", "debug", "pluralization",
    "message_format", "escape_html"]

/-- The settings that a node says. -/
def decode? (r : Reading Node) (n : Node) : Option Settings := do
  let entries ← r.entries? fields n
  let absent : Settings := {}
  let locale ← Reading.field entries "locale" absent.locale r.text?
  let fallback ← Reading.field entries "fallback_locale" absent.fallback r.optional?
  let defaultSpace ← Reading.field entries "default_namespace" absent.defaultSpace r.optional?
  let saveMissing ← Reading.field entries "save_missing" absent.saveMissing r.switch?
  let debug ← Reading.field entries "debug" absent.debug r.switch?
  let plural ← Reading.field entries "pluralization" absent.plural (decodePlural? r)
  let messageSyntax ← Reading.field entries "message_format" absent.messageSyntax fun n =>
    (r.word? n).bind MessageSyntax.ofWord?
  let escapeHtml ← Reading.field entries "escape_html" absent.escapeHtml r.switch?
  some { locale, fallback, defaultSpace, saveMissing, debug, plural, messageSyntax, escapeHtml }

/-- The settings in the form that `decode?` reads. -/
def toValue (s : Settings) : Value :=
  let optional : Option String → Value := fun o => (o.map Value.str).getD .null
  .ofFields [
    ("locale", .str s.locale),
    ("fallback_locale", optional s.fallback),
    ("default_namespace", optional s.defaultSpace),
    ("save_missing", .bool s.saveMissing),
    ("debug", .bool s.debug),
    ("pluralization", .ofFields [
      ("strategy", .str s.plural.strategy.word), ("plural_suffix", .str s.plural.ending)]),
    ("message_format", .str s.messageSyntax.word),
    ("escape_html", .bool s.escapeHtml)]

end Settings

end Phrasebook
