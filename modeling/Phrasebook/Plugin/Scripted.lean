import Phrasebook.Plugin

/-!
# Scripted plugins

A scripted plugin does what a table of actions says, which makes it easy to try out a host: it notes
the calls it gets, asks for texts, fails or panics on demand, and patches contexts and results.
-/

namespace Phrasebook

/-- The context as JSON data. -/
def Context.toValue (c : Context) : Value :=
  let optional : Option String → Value := fun o => (o.map Value.str).getD .null
  .ofFields [
    ("locale", .str c.locale),
    ("namespace", optional c.space),
    ("key", optional c.name),
    ("vars", (c.vars.map Value.object).getD .null),
    ("result", optional c.result),
    ("data", .object c.data)]

/-- The word for a call. -/
def Call.word : Call → String
  | .init _ => "init"
  | .before _ => "before"
  | .after _ => "after"
  | .missing _ => "missing"
  | .load _ _ _ => "load"
  | .localeChange _ _ => "locale_change"
  | .destroy => "destroy"

/-- What a call is about, as JSON data. -/
def Call.detail : Call → Value
  | .init options => .object options
  | .before c => c.toValue
  | .after c => c.toValue
  | .missing c => c.toValue
  | .load locale space catalog => .list [.str locale, .str space, catalog.toValue]
  | .localeChange old new => .list [.str old, .str new]
  | .destroy => .null

namespace Scripted

/-- A patch to answer with; `nameEnding` is added to the name of the context and goes before the
name of the patch. -/
structure PatchPlan where
  patch : Patch := {}
  nameEnding : Option String := none

/-- What a scripted plugin does when called: it asks for a text, panics, fails, answers with a
patch, adds to the result, or sets it. -/
structure Action where
  phrase : Option (String × Arguments) := none
  panics : Bool := false
  fails : Option String := none
  patch : Option PatchPlan := none
  append : Option String := none
  set : Option String := none

/-- The patch for a context. -/
def PatchPlan.patchFor (p : PatchPlan) (c : Context) : Patch :=
  match p.nameEnding with
  | some ending => { p.patch with name := some (c.name.getD "" ++ ending) }
  | none => p.patch

/-- The end of an action that neither fails nor panics. -/
def Action.outcome (a : Action) : Call → Outcome
  | .before c => (a.patch.map fun p => Outcome.patch (p.patchFor c)).getD .nothing
  | .after c =>
    match a.append, a.set with
    | some ending, _ => .text (c.result.getD "" ++ ending)
    | none, some text => .text text
    | none, none => .nothing
  | _ => .nothing

/-- How an action ends. -/
def Action.finish (a : Action) (call : Call) : Script :=
  .finish <|
    if a.panics then .panicked
    else match a.fails with
      | some message => .failed message
      | none => a.outcome call

/-- Asks for a text and notes it; a refused request leaves no note. -/
def askPhrase (key : String) (args : Arguments) (rest : Script) : Script :=
  .ask (.phrase key args) fun
    | .text s => .note (.list [.str "nested", .str s]) rest
    | _ => rest

/-- The script of an action: a note of the call, the text asked for, and the end. -/
def Action.script (name : String) (a : Action) (call : Call) : Script :=
  .note (.list [.str call.word, .str name, call.detail]) <|
    match a.phrase with
    | some (key, args) => askPhrase key args (a.finish call)
    | none => a.finish call

/-- The plugin that does these actions, each under the word of its call. -/
def plugin (info : PluginInfo) (config : PluginConfig) (actions : List (String × Action)) :
    Plugin where
  info := info
  defaultConfig := config
  memory := ""
  respond _ call :=
    match actions.lookup call.word with
    | some a => a.script info.name call
    | none => .finish .nothing

end Scripted

end Phrasebook
