import Phrasebook.Value

/-!
# Documents

`Document` is what a text says before it is known what it is to fill. Tables keep their entries in
the order of the text, repeated keys included.
-/

namespace Phrasebook

/-- Data as written. `broken` is a text that is not made of whole characters, and so is a key that
is `none`. -/
inductive Document where
  | null
  | bool (b : Bool)
  | int (n : Int)
  | float (x : Float)
  | text (s : String)
  | broken
  | list (items : List Document)
  | table (entries : List (Option String × Document))
  deriving Inhabited

namespace Document

mutual

/-- The value that the document stands for; of two entries with one key the later one counts. -/
def toValue : Document → Option Value
  | .null => some .null
  | .bool b => some (.bool b)
  | .int n => some (.int n)
  | .float x => some (.float x)
  | .text s => some (.str s)
  | .broken => none
  | .list items => (toValues items).map .list
  | .table entries => (toFields entries).map .ofFields

def toValues : List Document → Option (List Value)
  | [] => some []
  | d :: ds =>
    match d.toValue, toValues ds with
    | some v, some vs => some (v :: vs)
    | _, _ => none

def toFields : List (Option String × Document) → Option (List (String × Value))
  | [] => some []
  | (k, d) :: ds =>
    match k, d.toValue, toFields ds with
    | some k, some v, some vs => some ((k, v) :: vs)
    | _, _, _ => none

end

mutual

/-- The document that says exactly this value. -/
def ofValue : Value → Document
  | .null => .null
  | .bool b => .bool b
  | .int n => .int n
  | .float x => .float x
  | .str s => .text s
  | .list items => .list (ofValues items)
  | .object fields => .table (ofFields fields)

def ofValues : List Value → List Document
  | [] => []
  | v :: vs => ofValue v :: ofValues vs

def ofFields : List (String × Value) → List (Option String × Document)
  | [] => []
  | (k, v) :: vs => (some k, ofValue v) :: ofFields vs

end

end Document

end Phrasebook
