import Phrasebook.Key
import Phrasebook.Plugin.Host
import Phrasebook.Settings.Validation

/-!
# The phrase book

A phrase book answers keys with texts. `Service.phrase` splits the key, lets plugins change the
look-up, searches the current and the fallback locale, and fills the placeholders. A key without a
text is answered with the text that the caller gave or with the key itself; a placeholder is stored,
and background tasks to save the key and to load its namespace are started, each at most once at a
time.
-/

namespace Phrasebook

/-- A phrase book with its plugins. -/
abbrev Service := Host Engine

/-- How it ends to tell those who listen: each of them returns, or one panics. -/
inductive Ending where
  | returned
  | panicked
  deriving DecidableEq, Repr

def Ending.answer : Ending → Answer
  | returned => .done true
  | panicked => .panicked

namespace Service

def mapEngine (s : Service) (f : Engine → Engine) : Service :=
  { s with engine := f s.engine }

def tellOne (answer : Handler Engine) (l : Listener) (s : Service) : Outcome × Service :=
  (l.respond (s.memory l.ticket "")).run answer l.ticket (s.log (.notified l.ticket s.engine))

/-- Tells listeners in order. Nobody contains a panic of theirs, so no one is told after it. -/
def tellEach (answer : Handler Engine) : List Listener → Service → Ending × Service
  | [], s => (.returned, s)
  | l :: ls, s =>
    match tellOne answer l s with
    | (.panicked, s) => (.panicked, s)
    | (_, s) => tellEach answer ls s

/-- Tells those who listen now, whoever comes or goes meanwhile. -/
def notify (answer : Handler Engine) (s : Service) : Ending × Service :=
  tellEach answer s.engine.listeners s

def announceCatalog (answer : Handler Engine) (locale space : String) (c : Catalog) (s : Service) :
    Ending × Service :=
  notify answer (mapEngine s (·.install locale space c))

def announceLocale (answer : Handler Engine) (locale : String) (s : Service) : Ending × Service :=
  let old := s.engine.locale
  let s := mapEngine s fun e => { e with locale, formatLocale := locale }
  notify answer (s.dispatch answer (.localeChange old locale) { locale }).2

/-- The phrase book with a catalog added, even if the host has to deal with a panic then. -/
def addCatalog (answer : Handler Engine) (locale space : String) (c : Catalog) (s : Service) :
    Service :=
  (announceCatalog answer locale space c s).2

/-- The phrase book with another locale set, even if the host has to deal with a panic then. -/
def setLocale (answer : Handler Engine) (locale : String) (s : Service) : Service :=
  (announceLocale answer locale s).2

/-- Tells the plugins about a key without a text and records it. -/
def miss (answer : Handler Engine) (c : Context) (space name placeholder : String)
    (s : Service) : Service :=
  mapEngine (s.dispatch answer .missing c).2 (·.recordMissing c.locale space name placeholder)

/-- Renders a template and lets the plugins change the result. -/
def finish (answer : Handler Engine) (c : Context) (template : String) (s : Service) :
    String × Service :=
  let c := { c with result := some (s.engine.render template c.vars) }
  let (c, s) := s.dispatch answer .after c
  (c.result.getD "", s)

def contextFor (e : Engine) (key : String) (args : Arguments) : Context :=
  let k := Key.parse e.settings.defaultSpace e.locale key
  { locale := e.locale, space := some k.space, name := some k.name, vars := args.vars }

/-- The numeric value `count`. -/
def countOf (vars : Option Vars) : Option Float :=
  (vars.bind (Dictionary.find? "count")).bind Value.number?

def phrase (answer : Handler Engine) (key : String) (args : Arguments) (s : Service) :
    String × Service :=
  let (c, s) := s.dispatch answer .before (contextFor s.engine key args)
  let space := c.space.getD ""
  let name := c.name.getD ""
  -- plugins have had their say about locale, namespace and name
  match s.engine.findTemplate c.locale space name (countOf c.vars) with
  | some template => finish answer c template s
  | none =>
    -- the answer is the key as it was given, the placeholder the name alone
    let template := args.text?.getD key
    let c := { c with result := some template }
    finish answer c template (miss answer c space name (args.text?.getD name) s)

def knows (s : Service) (key : String) : Bool :=
  let e := s.engine
  let k := Key.parse e.settings.defaultSpace e.locale key
  (e.lookup (e.chain e.locale) k.space k.name).isSome

/-- Whether a namespace has been added or loaded. -/
def isLoaded (s : Service) (locale space : String) : Bool :=
  s.engine.loaded.contains (locale, space)

/-- A script is a listener that does the same whatever it remembers. -/
instance : Coe Script (String → Script) where
  coe script := fun _ => script

def subscribe (respond : String → Script) (s : Service) : Nat × Service :=
  (s.tickets,
    { s with
      tickets := s.tickets + 1
      engine := { s.engine with listeners := s.engine.listeners ++ [⟨s.tickets, respond⟩] } })

def unsubscribe (ticket : Nat) (s : Service) : Service :=
  mapEngine s fun e => { e with listeners := e.listeners.filter (·.ticket != ticket) }

/-- Ends a load. What was found replaces the catalog, and plugins are told of it. After a panic of the
loader or of a listener the namespace counts as being loaded for ever. -/
def finishLoad (answer : Handler Engine) (locale space : String) (r : LoadResult) (s : Service) :
    Service :=
  let job := Job.load locale space
  let settled : Engine → Engine := fun e =>
    { e with loading := e.loading.filter (· != (locale, space)) }.dropTask job
  match r with
  | .found c =>
    match announceCatalog answer locale space c s with
    | (.panicked, s) => mapEngine s (·.dropTask job)
    | (.returned, s) =>
      let hook := Hook.load locale space c
      mapEngine (s.dispatch answer hook { locale, space := some space }).2 settled
  | .absent => mapEngine s settled
  | .failed => mapEngine s settled
  | .panicked => mapEngine s (·.dropTask job)

/-- Ends a save. After a panic the key counts as being saved for ever. -/
def finishSave (locale space name text : String) (r : SaveResult) (s : Service) : Service :=
  let job := Job.save locale space name text
  mapEngine s fun e =>
    match r with
    | .panicked => e.dropTask job
    | _ => { e with saving := e.saving.filter (· != (locale, space, name)) }.dropTask job

/-- Carries out the requests that are about texts and locales. -/
def perform (inner : Handler Engine) : Handler Engine
  | .phrase key args, s =>
    let (text, s) := phrase inner key args s
    (.text text, s)
  | .addCatalog locale space c, s =>
    let (ending, s) := announceCatalog inner locale space c s
    (ending.answer, s)
  | .setLocale locale, s =>
    let (ending, s) := announceLocale inner locale s
    (ending.answer, s)
  | request, s => Host.refuse request s

/-- Answers requests nested up to `depth` deep. -/
def answer : Nat → Handler Engine
  | 0 => Host.refuse
  | depth + 1 => Host.answerRegistry (answer depth) (perform (answer depth))

end Service

structure ServicePlan where
  settings : Settings
  plugins : List (Plugin × Option PluginConfig) := []
  store : Store := []
  hasLoader : Bool := false
  hasSaver : Bool := false
  background : Bool := true

inductive ServiceError where
  | settings (cause : SettingsError)
  | plugin (cause : PluginError)
  deriving DecidableEq, Repr

def ServiceError.message : ServiceError → String
  | settings cause => "Invalid configuration: " ++ cause.message
  | plugin cause => cause.message

namespace Service

def blank (p : ServicePlan) : Service :=
  { engine :=
    { settings := p.settings
      store := p.store
      locale := p.settings.locale
      formatLocale := p.settings.locale
      hasLoader := p.hasLoader
      hasSaver := p.hasSaver
      background := p.background } }

/-- Registers plugins in order up to the first that is refused. -/
def registerAll (answer : Handler Engine) :
    List (Plugin × Option PluginConfig) → Service → Except PluginError Unit × Service
  | [], s => (.ok (), s)
  | (p, config) :: rest, s =>
    match s.register answer p config with
    | (.ok (), s) => registerAll answer rest s
    | (.error e, s) => (.error e, s)

/-- Opens a phrase book: the settings have to be valid and every plugin has to be accepted. Plugins
cannot ask for anything yet. The state is given even if that fails, for what happened so far. -/
def create (p : ServicePlan) : Except ServiceError Unit × Service :=
  match p.settings.validate with
  | .error e => (.error (.settings e), blank p)
  | .ok () =>
    match registerAll Host.refuse p.plugins (blank p) with
    | (.error e, s) => (.error (.plugin e), s)
    | (.ok (), s) => (.ok (), s)

end Service

end Phrasebook
