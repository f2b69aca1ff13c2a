import Phrasebook.Plugin
import Phrasebook.Plural.Resolver
import Phrasebook.Settings
import Phrasebook.Store
import Phrasebook.Template.Icu

/-!
# The state of a phrase book

An engine is a phrase book without its plugins: its texts and locales, who listens, and the work in
the background. It searches and renders texts, and it keeps the marks by which every key is saved
and every namespace is loaded at most once at a time.
-/

namespace Phrasebook

inductive Job where
  | load (locale space : String)
  | save (locale space name text : String)
  deriving DecidableEq, Repr

/-- A task is about to start, waits for a permit, or has been given one. -/
inductive TaskState where
  | ready
  | waiting
  | admitted
  deriving DecidableEq, Repr

structure Task where
  job : Job
  state : TaskState := .ready
  deriving DecidableEq, Repr

/-- One who listens: what is done when there is news, given what the listener remembers. -/
structure Listener where
  ticket : Nat
  respond : String → Script

/-- How a load ends: with a catalog, without one, with an error, or with a panic. -/
inductive LoadResult where
  | found (c : Catalog)
  | absent
  | failed
  | panicked

inductive SaveResult where
  | saved
  | failed
  | panicked
  deriving DecidableEq, Repr

/-- The state of a phrase book apart from its plugins: texts, locales, what is loaded, what is being
loaded and saved, listeners in order, and unfinished tasks in the order in which they run.
`background` tells whether tasks can be started at all. -/
structure Engine where
  settings : Settings
  store : Store := []
  locale : String
  formatLocale : String
  loaded : List (String × String) := []
  loading : List (String × String) := []
  saving : List (String × String × String) := []
  listeners : List Listener := []
  tasks : List Task := []
  hasLoader : Bool := false
  hasSaver : Bool := false
  background : Bool := true

namespace Engine

/-- The locales to search, in order. -/
def chain (e : Engine) (locale : String) : List String :=
  match e.settings.fallback with
  | some fallback => if fallback = locale then [locale] else [locale, fallback]
  | none => [locale]

/-- The text under a name in the first of the locales that has one. -/
def lookup (e : Engine) (locales : List String) (space name : String) : Option String :=
  locales.findSome? fun locale => e.store.get locale space name

/-- The text for a name and a count: first for the exact count, then for the plural form, then under
the plain name. -/
def findTemplate (e : Engine) (locale space name : String) (count : Option Float) :
    Option String :=
  let locales := e.chain locale
  match count with
  | none => e.lookup locales space name
  | some count =>
    let isPresent := fun name => locales.any fun locale => e.store.has locale space name
    let resolution := Plural.resolveChecked e.settings.plural locale name count isPresent
    ((e.lookup locales space (Plural.exactName name count)).or
      (e.lookup locales space resolution.name)).or
      (e.lookup locales space name)

/-- The template with its placeholders filled; without values it stays as it is. -/
def render (e : Engine) (template : String) (vars : Option Vars) : String :=
  match vars with
  | none => template
  | some vars =>
    match e.settings.messageSyntax with
    | .mustache => Mustache.render e.settings.escapeHtml vars template
    | .icu => Icu.render ⟨e.formatLocale, e.settings.escapeHtml, vars⟩ template

/-- Starts a task to save a key, unless one is under way. Without a background nothing starts. -/
def requestSave (e : Engine) (locale space name text : String) : Engine :=
  if e.hasSaver ∧ (locale, space, name) ∉ e.saving ∧ e.background then
    { e with
      saving := e.saving ++ [(locale, space, name)]
      tasks := e.tasks ++ [{ job := .save locale space name text }] }
  else e

/-- Starts a task to load a namespace, unless it is loaded or a load is under way. -/
def requestLoad (e : Engine) (locale space : String) : Engine :=
  if e.hasLoader ∧ (locale, space) ∉ e.loaded ∧ (locale, space) ∉ e.loading ∧ e.background then
    { e with
      loading := e.loading ++ [(locale, space)]
      tasks := e.tasks ++ [{ job := .load locale space }] }
  else e

/-- Stores a placeholder and starts the background work for a key without a text. -/
def recordMissing (e : Engine) (locale space name text : String) : Engine :=
  if name = "" then e else
    let e := { e with store := e.store.set locale space name text }
    let e := if e.settings.saveMissing then e.requestSave locale space name text else e
    e.requestLoad locale space

/-- Replaces the catalog of a namespace and marks it as loaded. -/
def install (e : Engine) (locale space : String) (c : Catalog) : Engine :=
  { e with
    store := e.store.setCatalog locale space c
    loaded := if (locale, space) ∈ e.loaded then e.loaded else e.loaded ++ [(locale, space)] }

def dropTask (e : Engine) (job : Job) : Engine :=
  { e with tasks := e.tasks.eraseP (·.job = job) }

end Engine

end Phrasebook
