import Phrasebook.Document.Json
import Phrasebook.Document.Yaml.Place

/-!
# Tags and directives

A tag names the type of a node. It is written with a handle, which a directive may give a meaning,
and a suffix in the characters of a URI. Tags are compared octet by octet.
-/

namespace Phrasebook.Yaml

/-- The octets of a tag. -/
abbrev Tag := List UInt8

namespace Tag

/-- The tag that this text spells. -/
def ofText (s : String) : Tag :=
  s.toUTF8.toList

/-- The tag of a core type. -/
def core (name : String) : Tag :=
  ofText ("tag:yaml.org,2002:" ++ name)

/-- The word of a local tag, if its octets make characters. -/
def word? : Tag → Option String
  | [] => none
  | mark :: octets => if mark = 33 then String.fromUTF8? ⟨octets.toArray⟩ else none

end Tag

/-- A character of names: a letter or digit of ASCII, an underscore or a hyphen. -/
def isNameChar (c : Char) : Bool :=
  c.isAlphanum || c = '_' || c = '-'

/-- A character of a URI that stands for itself. Commas and square brackets belong to it only where
they cannot end a node. -/
def isUriChar (wide : Bool) (c : Char) : Bool :=
  isNameChar c || ";/?:@&=+$.!~*'()".toList.contains c || (wide && ",[]".toList.contains c)

/-- The octet of an escape, and the rest. -/
def octet? : List Char → Option (UInt8 × List Char)
  | '%' :: a :: b :: rest => do
    let a ← Json.hexDigit? a
    let b ← Json.hexDigit? b
    some ((16 * a + b).toUInt8, rest)
  | _ => none

/-- How many octets the character has that begins with this one. -/
def octetCount? (o : UInt8) : Option Nat :=
  if o < 0x80 then some 1
  else if 0xC0 ≤ o ∧ o < 0xE0 then some 2
  else if 0xE0 ≤ o ∧ o < 0xF0 then some 3
  else if 0xF0 ≤ o ∧ o < 0xF8 then some 4
  else none

/-- So many octets from the middle of a character, and the rest. -/
def innerOctets? : Nat → List Char → Option (Tag × List Char)
  | 0, cs => some ([], cs)
  | n + 1, cs => do
    let (o, rest) ← octet? cs
    if o < 0x80 ∨ 0xC0 ≤ o then none
    let (os, rest) ← innerOctets? n rest
    some (o :: os, rest)

/-- The longest URI at the start of the text, which may be empty, and the rest. -/
def uri? (wide : Bool) : Nat → List Char → Option (Tag × List Char)
  | 0, _ => none
  | _ + 1, [] => some ([], [])
  | fuel + 1, c :: cs =>
    if isUriChar wide c then
      (uri? wide fuel cs).map fun (os, rest) => (c.toNat.toUInt8 :: os, rest)
    else if c = '%' then do
      let (o, rest) ← octet? (c :: cs)
      let (os, rest) ← innerOctets? ((← octetCount? o) - 1) rest
      let (more, rest) ← uri? wide fuel rest
      some (o :: os ++ more, rest)
    else some ([], c :: cs)

/-- The octets of a URI up to a zero. -/
def cutUri? (wide : Bool) (cs : List Char) : Option (Tag × List Char) :=
  (uri? wide (cs.length + 1) cs).map fun (os, rest) => (os.takeWhile (· != 0), rest)

/-- A handle as far as it goes: an exclamation mark, a name, and a mark again if there is one. -/
def handle? : List Char → Option (List Char × List Char)
  | '!' :: cs =>
    let name := cs.takeWhile isNameChar
    match cs.drop name.length with
    | '!' :: rest => some ('!' :: name ++ ['!'], rest)
    | rest => some ('!' :: name, rest)
  | _ => none

/-- A tag as written. A whole tag has no handle. -/
structure WrittenTag where
  handle : List Char := []
  suffix : Tag
  deriving DecidableEq, Repr

/-- The tag at the start of the text, and the rest. -/
def writtenTag? (brackets : Bool) (cs : List Char) : Option (WrittenTag × List Char) := do
  let (tag, rest) ← match cs with
    | '!' :: '<' :: rest => do
      let (suffix, after) ← cutUri? true rest
      if after.length = rest.length then none
      match after with
      | '>' :: after => some (WrittenTag.mk [] suffix, after)
      | _ => none
    | cs => do
      let (handle, rest) ← handle? cs
      if 1 < handle.length ∧ handle.getLast? = some '!' then
        let (suffix, after) ← cutUri? false rest
        if after.length = rest.length then none else some (WrittenTag.mk handle suffix, after)
      else
        let (suffix, rest) ← cutUri? false (cs.drop 1)
        if suffix.isEmpty then some (WrittenTag.mk [] (Tag.ofText "!"), rest)
        else some (WrittenTag.mk ['!'] suffix, rest)
  if endsWord rest || (brackets && rest.head? = some ',') then some (tag, rest) else none

/-- What a directive line says: the version of the language, or the meaning of a handle. -/
inductive Directive where
  | version (major minor : Nat)
  | handle (handle : List Char) (meaning : Tag)
  deriving DecidableEq, Repr

/-- A number of a version. -/
def versionNumber? (cs : List Char) : Option (Nat × List Char) :=
  let (ds, rest) := spanDigits cs
  if ds.isEmpty ∨ 9 < ds.length then none else some (digitsValue ds, rest)

/-- The directive behind a percent sign, and the lines after it. -/
def directive? (cs : List Char) : Option (Directive × List Char) := do
  let name := cs.takeWhile isNameChar
  let rest := cs.drop name.length
  if !endsWord rest then none
  let rest := rest.dropWhile isBlank
  if name = "YAML".toList then
    let (major, rest) ← versionNumber? rest
    match rest with
    | '.' :: rest =>
      let (minor, rest) ← versionNumber? rest
      (afterLine? rest).map fun rest => (.version major minor, rest)
    | _ => none
  else if name = "TAG".toList then
    let (handle, rest) ← handle? rest
    if handle ≠ ['!'] ∧ handle.getLast? ≠ some '!' then none
    if !rest.head?.any isBlank then none
    let rest := rest.dropWhile isBlank
    let (meaning, after) ← cutUri? true rest
    if after.length = rest.length ∨ !endsWord after then none
    (afterLine? after).map fun rest => (.handle handle meaning, rest)
  else none

/-- The handles that need no directive. -/
def handles : List (List Char × Tag) :=
  [(['!'], Tag.ofText "!"), (['!', '!'], Tag.core "")]

/-- The version and the handles that directives give, without one repeated; the version must be 1.1
or 1.2. -/
def handlesOf? (ds : List Directive) : Option (List (List Char × Tag)) :=
  let versions := ds.filterMap fun
    | .version major minor => some (major, minor)
    | .handle .. => none
  let given := ds.filterMap fun
    | .version .. => none
    | .handle h t => some (h, t)
  let names := given.map (·.1)
  if versions.length ≤ 1 ∧ versions.all (· ∈ [(1, 1), (1, 2)]) ∧ names.eraseDups = names then
    some (given ++ handles)
  else none

/-- The tag that a written tag stands for. -/
def WrittenTag.tag? (handles : List (List Char × Tag)) (t : WrittenTag) : Option Tag :=
  if t.handle.isEmpty then some t.suffix else (handles.lookup t.handle).map (· ++ t.suffix)

end Phrasebook.Yaml
