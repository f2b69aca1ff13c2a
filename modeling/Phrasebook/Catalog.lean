import Phrasebook.Value

/-!
# Catalogs

A catalog holds the texts of one namespace, some of them in nested groups. `Catalog.find?` looks for
a text under the whole name first and then walks the groups that the points of the name lead
through.
-/

namespace Phrasebook

/-- A text or a group of entries, ordered by name. -/
inductive Entry where
  | text (s : String)
  | group (entries : List (String × Entry))
  deriving Inhabited

abbrev Catalog := Dictionary Entry

namespace Entry

def text? : Entry → Option String
  | .text s => some s
  | .group _ => none

/-- The entry that the names lead to, each naming an entry of a group. -/
def follow : Entry → List String → Option Entry
  | e, [] => some e
  | .group entries, n :: ns =>
    match Dictionary.find? n entries with
    | some e => e.follow ns
    | none => none
  | .text _, _ :: _ => none

mutual

/-- The entry that a JSON value stands for: a text, or an object of such values. -/
def ofValue? : Value → Option Entry
  | .str s => some (.text s)
  | .object fields => (ofFields? fields).map .group
  | _ => none

def ofFields? : List (String × Value) → Option (List (String × Entry))
  | [] => some []
  | (k, v) :: rest =>
    match ofValue? v, ofFields? rest with
    | some e, some es => some ((k, e) :: es)
    | _, _ => none

end

mutual

def toValue : Entry → Value
  | .text s => .str s
  | .group entries => .object (toFields entries)

def toFields : List (String × Entry) → List (String × Value)
  | [] => []
  | (k, e) :: rest => (k, e.toValue) :: toFields rest

end

end Entry

namespace Catalog

/-- The catalog that a JSON value stands for: an object whose leaves are all texts. -/
def ofValue? : Value → Option Catalog
  | .object fields => Entry.ofFields? fields
  | _ => none

def toValue (c : Catalog) : Value :=
  .object (Entry.toFields c)

/-- The text reached through the groups named between the points. -/
def walk? (c : Catalog) (name : String) : Option String :=
  if '.' ∈ name.toList then
    ((Entry.group c).follow ((Text.pieces '.' name.toList).map String.ofList)).bind Entry.text?
  else none

/-- The text under `name`, the whole name before its parts. -/
def find? (c : Catalog) (name : String) : Option String :=
  match (Dictionary.find? name c).bind Entry.text? with
  | some text => some text
  | none => c.walk? name

end Catalog

end Phrasebook
