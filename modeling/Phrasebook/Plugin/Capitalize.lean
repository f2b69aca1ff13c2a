import Phrasebook.Plugin
import Phrasebook.Text.Transform

/-!
# Letter case by the ending of a name

The plugin strips an ending such as `_upper` from the name before the look-up and changes the letter
case of the result after it. The change is kept in the data of the context in between.
-/

namespace Phrasebook.Capitalize

def info : PluginInfo where
  name := "capitalize"
  kind := .processor
  description := some "Provides text transformation (uppercase, lowercase, capitalize)"
  author := some "i18n-bakery"

/-- The field of the data that names the change. -/
def field : String := "transform"

/-- The name without its ending, and the change that the ending asks for. -/
def patch? (c : Context) : Option Patch :=
  (c.name.bind Text.Transform.split?).map fun (base, t) =>
    { name := some base, data := some (Dictionary.insert field (.str t.word) c.data) }

/-- The change that the data name. -/
def transform? (data : Vars) : Option Text.Transform :=
  ((Dictionary.find? field data).bind Value.text?).bind Text.Transform.ofWord?

/-- The result with the change that the data name. -/
def result? (c : Context) : Option String :=
  match c.result, transform? c.data with
  | some text, some t => some (t.apply text)
  | _, _ => none

def respond : Call → Outcome
  | .before c => ((patch? c).map .patch).getD .nothing
  | .after c => ((result? c).map .text).getD .nothing
  | _ => .nothing

def plugin : Plugin :=
  ⟨info, {}, "", fun _ call => .finish (respond call)⟩

end Phrasebook.Capitalize
