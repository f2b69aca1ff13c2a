import Phrasebook.Dictionary
import Phrasebook.Number.Plain
import Phrasebook.Text.Split

/-!
# Values for placeholders

`Value` is what a caller passes for a placeholder: JSON data whose numbers are either exact
integers or 64-bit floating-point numbers. `Value.display` is its text inside a message and
`Value.render` its compact JSON text.
-/

namespace Phrasebook

/-- JSON data. The fields of an object are ordered by key. -/
inductive Value where
  | null
  | bool (b : Bool)
  | int (n : Int)
  | float (x : Float)
  | str (s : String)
  | list (items : List Value)
  | object (fields : List (String × Value))
  deriving Inhabited

/-- The values that a message can name. -/
abbrev Vars := Dictionary Value

namespace Value

/-- The object with these fields; of two fields with one key the later one counts. -/
def ofFields (fields : List (String × Value)) : Value :=
  .object (Dictionary.ofList fields)

/-- The number nearest to an integer. -/
def floatOfInt (n : Int) : Float :=
  let x := Float.ofScientific n.natAbs false 0
  if n < 0 then -x else x

/-- The number that the value is; texts are no numbers. -/
def number? : Value → Option Float
  | .int n => some (floatOfInt n)
  | .float x => some x
  | _ => none

def text? : Value → Option String
  | .str s => some s
  | _ => none

/-- The two characters or six that stand for a control character, quote or backslash. -/
def escapeChar (c : Char) : List Char :=
  if c = '"' then ['\\', '"']
  else if c = '\\' then ['\\', '\\']
  else if c.toNat = 8 then ['\\', 'b']
  else if c.toNat = 12 then ['\\', 'f']
  else if c = '\n' then ['\\', 'n']
  else if c = '\r' then ['\\', 'r']
  else if c = '\t' then ['\\', 't']
  else if c.toNat < 32 then
    ['\\', 'u', '0', '0', Nat.digitChar (c.toNat / 16), Nat.digitChar (c.toNat % 16)]
  else [c]

/-- A text between quotes, as JSON writes it. -/
def quote (s : String) : String :=
  String.ofList ('"' :: s.toList.flatMap escapeChar ++ ['"'])

mutual

/-- The JSON text of a value, without blanks. -/
def render : Value → String
  | .null => "null"
  | .bool b => if b then "true" else "false"
  | .int n => toString n
  | .float x => jsonNumber x
  | .str s => quote s
  | .list items => "[" ++ renderItems items ++ "]"
  | .object fields => "\x7b" ++ renderFields fields ++ "\x7d"

def renderItems : List Value → String
  | [] => ""
  | [v] => v.render
  | v :: w :: rest => v.render ++ "," ++ renderItems (w :: rest)

def renderFields : List (String × Value) → String
  | [] => ""
  | [(k, v)] => quote k ++ ":" ++ v.render
  | (k, v) :: e :: rest => quote k ++ ":" ++ v.render ++ "," ++ renderFields (e :: rest)

end

/-- The text of a value inside a message; a null has none. -/
def display (v : Value) : Option String :=
  match v with
  | .null => none
  | .str s => some s
  | .int n => some (plainNumber (floatOfInt n))
  | .float x => some (plainNumber x)
  | v => some v.render

/-- The value that the keys lead to, each naming a field of an object. -/
def follow : Value → List String → Option Value
  | v, [] => some v
  | .object fields, k :: ks =>
    match Dictionary.find? k fields with
    | some v => v.follow ks
    | none => none
  | _, _ :: _ => none

end Value

/-- The value at a path of names with points between them; a null counts as missing. -/
def Vars.lookup (vars : Vars) (path : String) : Option Value :=
  match Value.follow (.object vars) ((Text.pieces '.' path.toList).map String.ofList) with
  | some .null => none
  | found => found

end Phrasebook
