import Phrasebook.Catalog

/-!
# Plugins

A plugin answers calls. Its answer is a script: what it notes, what it asks the phrase book to do,
and how it ends. A script is a finite tree, so running it ends as soon as every request is answered.
-/

namespace Phrasebook

inductive PluginKind where
  | formatter
  | backend
  | detector
  | processor
  | middleware
  deriving DecidableEq, Repr

namespace PluginKind

def word : PluginKind → String
  | formatter => "formatter"
  | backend => "backend"
  | detector => "detector"
  | processor => "processor"
  | middleware => "middleware"

def ofWord? (w : String) : Option PluginKind :=
  [formatter, backend, detector, processor, middleware].find? (·.word == w)

end PluginKind

/-- What a plugin says about itself. -/
structure PluginInfo where
  name : String
  version : String := "1.0.0"
  kind : PluginKind
  description : Option String := none
  author : Option String := none
  dependencies : List String := []
  deriving DecidableEq, Repr

/-- Whether a plugin takes part, and its options. -/
structure PluginConfig where
  enabled : Bool := true
  options : Vars := []

/-- The configuration that a JSON value says: an object with `enabled` and `options`, or a list of
them in this order. Either may be left out. -/
def PluginConfig.ofValue? : Value → Option PluginConfig
  | .object fields =>
    match (Dictionary.find? "enabled" fields).getD (.bool true),
        (Dictionary.find? "options" fields).getD (.object []) with
    | .bool enabled, .object options => some ⟨enabled, options⟩
    | _, _ => none
  | .list [] => some {}
  | .list [.bool enabled] => some { enabled }
  | .list [.bool enabled, .object options] => some ⟨enabled, options⟩
  | _ => none

/-- One call for a text while plugins look at it: where the text is looked up, what for, and the
rendered result. -/
structure Context where
  locale : String := ""
  space : Option String := none
  name : Option String := none
  vars : Option Vars := none
  result : Option String := none
  data : Vars := []

structure Patch where
  locale : Option String := none
  space : Option String := none
  name : Option String := none
  vars : Option Vars := none
  result : Option String := none
  data : Option Vars := none

def Context.apply (c : Context) (p : Patch) : Context where
  locale := p.locale.getD c.locale
  space := p.space.or c.space
  name := p.name.or c.name
  vars := p.vars.or c.vars
  result := p.result.or c.result
  data := p.data.getD c.data

/-- What the caller gives along with a key: a text for when there is none, and values. -/
structure Arguments where
  fallback : Option String := none
  vars : Option Vars := none

/-- The text for when there is none: the given one or else the value `defaultValue`. An empty text
counts as absent. -/
def Arguments.text? (a : Arguments) : Option String :=
  (a.fallback.filter (· != "")).or
    (((a.vars.bind (Dictionary.find? "defaultValue")).bind Value.text?).filter (· != ""))

inductive Call where
  | init (options : Vars)
  | before (c : Context)
  | after (c : Context)
  | missing (c : Context)
  | load (locale space : String) (catalog : Catalog)
  | localeChange (old new : String)
  | destroy

inductive Outcome where
  | nothing
  | patch (p : Patch)
  | text (s : String)
  | failed (message : String)
  | panicked

/-- The answer to a request: a text, whether something was done, that the request is nested too
deeply to be carried out, or that a panic came out of it. -/
inductive Answer where
  | text (s : String)
  | done (changed : Bool)
  | refused
  | panicked
  deriving DecidableEq, Repr

mutual

/-- The steps of a plugin: to note something, to keep a text for later calls, to ask for something
and go on with the answer, or to end. -/
inductive Script where
  | finish (outcome : Outcome)
  | note (entry : Value) (rest : Script)
  | remember (memory : String) (rest : Script)
  | ask (request : Request) (next : Answer → Script)

/-- What a plugin can ask for while it answers a call. -/
inductive Request where
  | phrase (key : String) (args : Arguments)
  | addCatalog (locale space : String) (catalog : Catalog)
  | setLocale (locale : String)
  | register (plugin : Plugin) (config : Option PluginConfig)
  | unregister (name : String)
  | setEnabled (name : String) (enabled : Bool)
  | clear

/-- A plugin: what it says about itself, how it is set up where nothing else is asked for, what it
remembers at first, and how it answers calls with what it remembers. -/
structure Plugin where
  info : PluginInfo
  defaultConfig : PluginConfig
  memory : String
  respond : String → Call → Script

end

def Plugin.plain (info : PluginInfo) : Plugin :=
  ⟨info, {}, "", fun _ _ => .finish .nothing⟩

end Phrasebook
