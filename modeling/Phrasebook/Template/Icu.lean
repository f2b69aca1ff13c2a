import Phrasebook.Template.Icu.Pattern
import Phrasebook.Text.Token

/-!
# Messages with patterns

A message is rendered in three steps. First the patterns are replaced, kind by kind and pass after
pass until nothing changes; text of a value is parked in a slot so that it is not read as a
pattern. Then simple placeholders are filled, and last the parked texts return from their slots.
-/

namespace Phrasebook.Icu

/-- The characters that begin and end a slot. -/
def slotOpen : Char := '\ue000'

def slotClose : Char := '\ue001'

/-- The slot of the parked text with this index. -/
def slot (index : Nat) : List Char :=
  slotOpen :: Decimal.natDigits index ++ [slotClose]

/-- A text in work and the texts parked so far. -/
structure Work where
  text : List Char
  parked : List (List Char) := []
  deriving DecidableEq, Repr

/-- What stands in place of a pattern over the value of `name`, where `cs` follows its head, and the
text after the pattern. -/
def replacement? (env : Env) (kind : Kind) (name cs : List Char) :
    Option (Replacement × List Char) :=
  (closing 0 cs).bind fun (options, tail) =>
    (choose env kind (Dictionary.find? (String.ofList name) env.vars) options).map (·, tail)

/-- Replaces the patterns of one kind from left to right. A body that takes the place of a pattern
is read again, a pattern that cannot be replaced is passed over up to the end of its head. Every
step leaves fewer opening braces to read, so their number suffices for `fuel`. -/
def resolveWithin (env : Env) (kind : Kind) : Nat → Work → Work
  | 0, w => w
  | fuel + 1, w =>
    match findMarker kind w.text with
    | none => w
    | some (before, name, head, after) =>
      match replacement? env kind name after with
      | some (.body body, tail) =>
        let rest := resolveWithin env kind fuel { w with text := body ++ tail }
        { rest with text := before ++ rest.text }
      | some (.text text, tail) =>
        let rest := resolveWithin env kind fuel ⟨tail, w.parked ++ [text]⟩
        { rest with text := before ++ slot w.parked.length ++ rest.text }
      | none =>
        let rest := resolveWithin env kind fuel { w with text := after }
        { rest with text := before ++ head ++ rest.text }

/-- Replaces the patterns of one kind. -/
def resolve (env : Env) (kind : Kind) (w : Work) : Work :=
  resolveWithin env kind (w.text.count '\x7b') w

/-- The kinds in the order of a pass. -/
def passOrder : List Kind :=
  [.plural, .select, .ordinal]

/-- Replaces the patterns of every kind once. -/
def pass (env : Env) (w : Work) : Work :=
  passOrder.foldl (fun w kind => resolve env kind w) w

/-- Passes until the text stays the same, at most this many. -/
def settle (env : Env) : Nat → Work → Work
  | 0, w => w
  | n + 1, w =>
    let next := pass env w
    if next.text = w.text then next else settle env n next

/-- The number of passes after which a message is taken as it is. -/
def passLimit : Nat := 32

/-- Fills the simple placeholders. -/
def fillVariables (env : Env) (cs : List Char) : List Char :=
  Text.replaceTokens simple? (fun name =>
    ((Dictionary.find? (String.ofList name) env.vars).bind Value.display).map
      (showText env.escape)) cs

/-- The digits in a slot at the start of the text, and the length of the slot. -/
def slot? : List Char → Option (List Char × Nat)
  | c :: rest =>
    let ds := rest.takeWhile Text.isDigit
    match ds, rest.drop ds.length with
    | _ :: _, e :: _ => if c = slotOpen ∧ e = slotClose then some (ds, ds.length + 2) else none
    | _, _ => none
  | [] => none

/-- Returns the parked texts from their slots. -/
def restore (parked : List (List Char)) (cs : List Char) : List Char :=
  Text.replaceTokens slot? (fun ds => (readDigits? ds).bind (parked[·]?)) cs

/-- The characters of a rendered message. -/
def renderChars (env : Env) (template : List Char) : List Char :=
  let w := settle env passLimit { text := template }
  restore w.parked (fillVariables env w.text)

/-- The rendered message. -/
def render (env : Env) (template : String) : String :=
  String.ofList (renderChars env template.toList)

end Phrasebook.Icu
