import Phrasebook.Text.Blank
import Phrasebook.Text.Split

/-!
# Keys

A key names a text inside a namespace. `Key.normalize` collapses repeated separators and trims the
ends, `Key.parse` splits a key into namespace and name. Parsing never fails: a key without a
separator belongs to the default namespace.
-/

namespace Phrasebook

/-- A namespace and the name of a text in it; the name may have points for nested groups. -/
structure Key where
  space : String
  name : String
  deriving DecidableEq, Repr

namespace Key

def isSeparator (c : Char) : Bool :=
  c = ':' || c = '.'

/-- Whether the character may not stand at either end of a canonical key. -/
def isMargin (c : Char) : Bool :=
  isSeparator c || Text.isBlank c

def collapse : List Char → List Char
  | [] => []
  | [c] => [c]
  | c :: d :: cs => if isSeparator c ∧ c = d then collapse (d :: cs) else c :: collapse (d :: cs)

def canonical (cs : List Char) : List Char :=
  Text.trimBy isMargin (collapse cs)

/-- The canonical form: no separator twice in a row, no separator or blank at either end. -/
def normalize (key : String) : String :=
  String.ofList (canonical key.toList)

def split? (cs : List Char) : Option (List Char × List Char) :=
  -- the last colon divides a key, and only without a colon the first point
  match Text.cutLast ':' cs with
  | some (space, name) => some (space.map fun c => if c = ':' then '/' else c, name)
  | none => Text.cutFirst '.' cs

def defaultSpace (space : Option String) (locale : String) : String :=
  space.getD locale

/-- Splits a key; `space` is the default namespace and `locale` stands in where there is none. -/
def parse (space : Option String) (locale key : String) : Key :=
  let cs := canonical key.toList
  match split? cs with
  | some (space, name) => ⟨String.ofList space, String.ofList name⟩
  | none => ⟨defaultSpace space locale, String.ofList cs⟩

end Key

end Phrasebook
