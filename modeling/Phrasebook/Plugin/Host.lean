import Phrasebook.Engine

/-!
# Hosts of plugins

A host keeps plugins in the order of their registration and calls them. Plugins depend on others by
name: a plugin is registered after those it needs and leaves before them. Whatever a plugin does
when called, even failing or panicking, the others are called all the same.

Requests that a plugin makes while it is called are answered by a handler, so that the same code
serves a host on its own and a host that is part of a phrase book.
-/

namespace Phrasebook

/-- What happened: a plugin was called, something was noted, a request was refused, a loader or
saver was asked, a listener was notified and found the phrase book in this state. -/
inductive Event where
  | called (ticket : Nat) (name : String) (call : Call)
  | noted (entry : Value)
  | refused (request : Request)
  | loaderAsked (locale space : String)
  | saverAsked (locale space name text : String)
  | notified (ticket : Nat) (found : Engine)

/-- A plugin that is registered. No two registrations ever have the same ticket. -/
structure Registration where
  ticket : Nat
  plugin : Plugin
  config : PluginConfig

def Registration.name (r : Registration) : String :=
  r.plugin.info.name

/-- The registered plugins in order, what each remembers, the next ticket, what happened so far, and
the rest of the state that requests act on. -/
structure Host (ε : Type) where
  registry : List Registration := []
  memories : List (Nat × String) := []
  tickets : Nat := 0
  journal : List Event := []
  engine : ε

abbrev Handler (ε : Type) := Request → Host ε → Answer × Host ε

inductive PluginError where
  | alreadyRegistered (plugin : String)
  | missingDependency (plugin dependency : String)
  | inUse (plugin dependent : String)
  | initFailed (plugin cause : String)
  deriving DecidableEq, Repr

def PluginError.message : PluginError → String
  | alreadyRegistered plugin => "Plugin '" ++ plugin ++ "' is already registered"
  | missingDependency plugin dependency =>
    "Plugin '" ++ plugin ++ "' depends on '" ++ dependency ++ "' which is not registered"
  | inUse plugin dependent =>
    "Cannot unregister plugin '" ++ plugin ++ "' because '" ++ dependent ++ "' depends on it"
  | initFailed plugin cause => "Failed to initialize plugin '" ++ plugin ++ "': " ++ cause

/-- The calls that go to every enabled plugin. -/
inductive Hook where
  | before
  | after
  | missing
  | load (locale space : String) (catalog : Catalog)
  | localeChange (old new : String)

namespace Hook

def name : Hook → String
  | before => "before_translate"
  | after => "after_translate"
  | missing => "on_missing"
  | load _ _ _ => "on_load"
  | localeChange _ _ => "on_locale_change"

def call (hook : Hook) (c : Context) : Call :=
  match hook with
  | before => .before c
  | after => .after c
  | missing => .missing c
  | load locale space catalog => .load locale space catalog
  | localeChange old new => .localeChange old new

/-- The context after an answer: a patch counts before the look-up, a text after it. -/
def absorb (hook : Hook) (c : Context) (o : Outcome) : Context :=
  match hook, o with
  | before, .patch p => c.apply p
  | after, .text s => { c with result := some s }
  | _, _ => c

end Hook

namespace Host

variable {ε : Type}

def log (h : Host ε) (e : Event) : Host ε :=
  { h with journal := h.journal ++ [e] }

def remember (h : Host ε) (ticket : Nat) (memory : String) : Host ε :=
  { h with memories := (ticket, memory) :: h.memories.filter (·.1 != ticket) }

def memory (h : Host ε) (ticket : Nat) (initial : String) : String :=
  (h.memories.lookup ticket).getD initial

end Host

/-- Runs a script; requests go to the handler, and what it remembers is kept under the ticket. A panic
that comes out of a request ends the script. -/
def Script.run {ε : Type} (answer : Handler ε) (ticket : Nat) :
    Script → Host ε → Outcome × Host ε
  | .finish o, h => (o, h)
  | .note entry rest, h => rest.run answer ticket (h.log (.noted entry))
  | .remember memory rest, h => rest.run answer ticket (h.remember ticket memory)
  | .ask request next, h =>
    match answer request h with
    | (.panicked, h) => (.panicked, h)
    | (a, h) => (next a).run answer ticket h

namespace Host

variable {ε : Type}

def refuse : Handler ε :=
  fun request h => (.refused, h.log (.refused request))

def call (answer : Handler ε) (ticket : Nat) (p : Plugin) (c : Call) (h : Host ε) :
    Outcome × Host ε :=
  let h := h.log (.called ticket p.info.name c)
  (p.respond (h.memory ticket p.memory) c).run answer ticket h

/-- Calls a registered plugin and drops its answer. -/
def destroy (answer : Handler ε) (r : Registration) (h : Host ε) : Host ε :=
  (h.call answer r.ticket r.plugin .destroy).2

def has (h : Host ε) (name : String) : Bool :=
  h.registry.any (·.name == name)

def find? (h : Host ε) (name : String) : Option Registration :=
  h.registry.find? (·.name == name)

/-- The first reason against registering a plugin: its name is taken, or a plugin that it needs is
not there. -/
def objection? (h : Host ε) (info : PluginInfo) : Option PluginError :=
  if h.has info.name then some (.alreadyRegistered info.name)
  else (info.dependencies.find? fun d => !h.has d).map (.missingDependency info.name)

def register (answer : Handler ε) (p : Plugin) (config : Option PluginConfig) (h : Host ε) :
    Except PluginError Unit × Host ε :=
  match h.objection? p.info with
  | some e => (.error e, h)
  | none =>
    let config := config.getD p.defaultConfig
    let ticket := h.tickets
    match call answer ticket p (.init config.options) { h with tickets := ticket + 1 } with
    | (.failed cause, h) => (.error (.initFailed p.info.name cause), h)
    | (.panicked, h) => (.error (.initFailed p.info.name "init panicked"), h)
    | (_, h) =>
      -- the plugin may have registered another one of its name meanwhile
      if h.has p.info.name then (.error (.alreadyRegistered p.info.name), h)
      else (.ok (), { h with registry := h.registry ++ [⟨ticket, p, config⟩] })

/-- Removes a plugin and calls it a last time, unless a registered plugin depends on it. Tells
whether there was such a plugin. -/
def unregister (answer : Handler ε) (name : String) (h : Host ε) :
    Except PluginError Bool × Host ε :=
  match h.find? name with
  | none => (.ok false, h)
  | some r =>
    match h.registry.find? fun d => d.plugin.info.dependencies.contains name with
    | some d => (.error (.inUse name d.name), h)
    | none =>
      (.ok true,
        destroy answer r { h with registry := h.registry.eraseP (·.name == name) })

def setEnabledIn (name : String) (enabled : Bool) : List Registration → List Registration
  | [] => []
  | r :: rs =>
    if r.name == name then { r with config := { r.config with enabled } } :: rs
    else r :: setEnabledIn name enabled rs

def setEnabled (name : String) (enabled : Bool) (h : Host ε) : Bool × Host ε :=
  (h.has name, { h with registry := setEnabledIn name enabled h.registry })

def clear (answer : Handler ε) (h : Host ε) : Host ε :=
  -- the newest first, so that dependents go before what they depend on
  h.registry.reverse.foldl (fun h r => h.destroy answer r) { h with registry := [] }

def enabled (h : Host ε) : List Registration :=
  h.registry.filter (·.config.enabled)

/-- Calls these plugins in order, each with the context that the ones before it left. -/
def dispatchTo (answer : Handler ε) (hook : Hook) :
    List Registration → Context → Host ε → Context × Host ε
  | [], c, h => (c, h)
  | r :: rs, c, h =>
    let (o, h) := h.call answer r.ticket r.plugin (hook.call c)
    dispatchTo answer hook rs (hook.absorb c o) h

/-- Calls every plugin that is enabled at the start. -/
def dispatch (answer : Handler ε) (hook : Hook) (c : Context) (h : Host ε) : Context × Host ε :=
  dispatchTo answer hook h.enabled c h

/-- Answers requests about the registry; `inner` answers what the plugins called meanwhile ask, and
`other` every other request. -/
def answerRegistry (inner other : Handler ε) : Handler ε
  | .register p config, h =>
    match register inner p config h with
    | (.ok (), h) => (.done true, h)
    | (.error _, h) => (.done false, h)
  | .unregister name, h =>
    match unregister inner name h with
    | (.ok removed, h) => (.done removed, h)
    | (.error _, h) => (.done false, h)
  | .setEnabled name enabled, h =>
    let (found, h) := h.setEnabled name enabled
    (.done found, h)
  | .clear, h => (.done true, h.clear inner)
  | request, h => other request h

end Host

abbrev Manager := Host Unit

/-- Answers requests of plugins nested up to `depth` deep; only those about the registry make sense
to a host on its own. -/
def Manager.answer : Nat → Handler Unit
  | 0 => Host.refuse
  | depth + 1 => Host.answerRegistry (Manager.answer depth) Host.refuse

end Phrasebook
