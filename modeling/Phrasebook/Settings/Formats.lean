import Phrasebook.Document
import Phrasebook.Document.Toml.Tree
import Phrasebook.Document.Yaml
import Phrasebook.Settings.Decode

/-!
# Settings in JSON, TOML and YAML

How the documents of the three formats are read as settings. In JSON and TOML a list may stand for a
record, its items filling the fields in order, and a table whose only key is a word for that word.
In YAML it is the style and the tag of a scalar that tell a text from other values.
-/

namespace Phrasebook

namespace Document

def text? : Document → Option String
  | .text s => some s
  | _ => none

def switch? : Document → Option Bool
  | .bool b => some b
  | _ => none

def optional? : Document → Option (Option String)
  | .null => some none
  | d => d.text?.map some

/-- A word, or a table with nothing under the word. -/
def word? : Document → Option String
  | .table [(some word, .null)] => some word
  | d => d.text?

/-- The entries of a table, or the items of a list with no more items than the record has fields. -/
def record? (fields : List String) : Document → Option (List (String × Document))
  | .table entries => entries.mapM fun (k, d) => k.map (·, d)
  | .list items => if items.length ≤ fields.length then some (fields.zip items) else none
  | _ => none

/-- How JSON documents are read. -/
def reading : Reading Document :=
  ⟨text?, switch?, optional?, word?, record?⟩

end Document

namespace Toml

namespace Node

def text? : Node → Option String
  | .text s => some s
  | _ => none

def switch? : Node → Option Bool
  | .bool b => some b
  | _ => none

def optional? (n : Node) : Option (Option String) :=
  n.text?.map some

/-- A word, or a table with an empty list or table under the word. Only an open table may have more
entries behind that one. -/
def word? : Node → Option String
  | .closed [(word, n)] => if n.isEmpty then some word else none
  | .table _ ((word, n) :: _) => if n.isEmpty then some word else none
  | n => n.text?

/-- The entries of a table, or the items of a list. Items beyond the fields are passed over, and a
moment has no entry for any field. -/
def record? (fields : List String) : Node → Option (List (String × Node))
  | .closed entries => some entries
  | .table _ entries => some entries
  | .list items => some (fields.zip items)
  | .tables items => some (fields.zip (items.reverse.map (.table .header)))
  | .moment _ => some []
  | _ => none

end Node

/-- How TOML documents are read. -/
def reading : Reading Node :=
  ⟨Node.text?, Node.switch?, Node.optional?, Node.word?, Node.record?⟩

end Toml

namespace Yaml

/-- Whether this is one of the words for nothing. -/
def isNull (s : String) : Bool :=
  s ∈ ["null", "Null", "NULL", "~"]

namespace Node

def text? : Node → Option String
  | .scalar _ _ s => some s
  | _ => none

/-- A plain word for true or false. A literal block may stand for one if its tag says so. -/
def switch? : Node → Option Bool
  | .scalar tag style s =>
    if style = .plain ∨ (style = .literal ∧ tag = some (Tag.core "bool")) then
      if s ∈ ["true", "True", "TRUE"] then some true
      else if s ∈ ["false", "False", "FALSE"] then some false
      else none
    else none
  | _ => none

/-- A text, or nothing where a plain scalar is left out or a word for it. A tag makes any plain
scalar a text, but the tag of nothing takes no other words. -/
def optional? : Node → Option (Option String)
  | .scalar tag style s =>
    if style ≠ .plain then some (some s)
    else match tag with
      | some tag =>
        if tag = Tag.core "null" then if isNull s then some none else none else some (some s)
      | none => if s = "" ∨ isNull s then some none else some (some s)
  | _ => none

/-- A word as a local tag, with nothing else, or as a scalar. -/
def word? : Node → Option String
  | .scalar tag style s =>
    match tag.bind Tag.word? with
    | some word => if style = .plain ∧ (s = "" ∨ isNull s) then some word else none
    | none => some s
  | _ => none

end Node

/-- The entries of a table whose keys are texts. A record may be left out. -/
def record? (d : Document) : Node → Option (List (String × Node))
  | .table _ entries => entries.mapM fun (k, n) => do some (← (← d.target? k).text?, n)
  | .scalar _ .plain "" => some []
  | _ => none

/-- How the nodes of a document are read. -/
def reading (d : Document) : Reading Node where
  text? n := d.target? n >>= Node.text?
  switch? n := d.target? n >>= Node.switch?
  optional? n := d.target? n >>= Node.optional?
  word? n := d.target? n >>= Node.word?
  record? _ n := d.target? n >>= record? d

end Yaml

end Phrasebook
