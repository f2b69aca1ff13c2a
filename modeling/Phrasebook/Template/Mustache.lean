import Phrasebook.Text.Blank
import Phrasebook.Text.Markup
import Phrasebook.Text.Token
import Phrasebook.Value

/-!
# Templates with double braces

A placeholder is a path between two pairs of braces. It is replaced by the text of the value at the
path; without such a text it stays as written.
-/

namespace Phrasebook

/-- The text of a value in a message, escaped for HTML on request. -/
def showText (escape : Bool) (text : String) : List Char :=
  if escape then text.toList.flatMap Text.escapeChar else text.toList

namespace Mustache

/-- The path in a placeholder at the start of the text, and the length of the placeholder. -/
def placeholder? : List Char → Option (List Char × Nat)
  | '\x7b' :: '\x7b' :: rest =>
    let path := rest.takeWhile (· != '\x7d')
    match path, rest.drop path.length with
    | _ :: _, '\x7d' :: '\x7d' :: _ => some (path, path.length + 4)
    | _, _ => none
  | _ => none

/-- The text at a path, blanks around the path aside. -/
def replacement (escape : Bool) (vars : Vars) (path : List Char) : Option (List Char) :=
  ((vars.lookup (Text.trim (String.ofList path))).bind Value.display).map (showText escape)

/-- The characters of the template with its placeholders filled. -/
def renderChars (escape : Bool) (vars : Vars) (template : List Char) : List Char :=
  Text.replaceTokens placeholder? (replacement escape vars) template

/-- The template with its placeholders filled. -/
def render (escape : Bool) (vars : Vars) (template : String) : String :=
  String.ofList (renderChars escape vars template.toList)

end Mustache

end Phrasebook
