import Phrasebook.Document.Yaml.Scalar
import Phrasebook.Document.Yaml.Tag

/-!
# Tokens

`tokens?` cuts a YAML text into tokens. Indentation becomes tokens that open and close collections.
A key needs no mark of its own: where a colon follows on the same line, the token for the key is put
in front of what was read before.
-/

namespace Phrasebook.Yaml

/-- The tokens of a YAML text. A block collection is one by indentation. -/
inductive Token where
  | directive (d : Directive)
  | documentStart
  | documentEnd
  | blockList
  | blockTable
  | blockEnd
  | openList
  | closeList
  | openTable
  | closeTable
  | dash
  | comma
  | key
  | value
  | anchor (name : List Char)
  | link (name : List Char)
  | tag (t : WrittenTag)
  | scalar (style : Style) (text : List Char)
  deriving DecidableEq, Repr

/-- Where a key without a mark may have begun: its place among the tokens and in the text. It is
required where nothing but a key can stand. -/
structure KeyStart where
  index : Nat
  line : Nat
  column : Nat
  required : Bool

/-- The tokens so far and what decides about the next one: the columns of the open block
collections from the innermost on, whether a key may begin, and where keys may have begun, inside
the innermost brackets and outside them. -/
structure Scan where
  place : Place
  tokens : Array Token := #[]
  columns : List Nat := []
  keyAllowed : Bool := true
  start : Option KeyStart := none
  outer : List (Option KeyStart) := []

namespace Scan

/-- Whether the place is inside brackets. -/
def inBrackets (s : Scan) : Bool := !s.outer.isEmpty

/-- The least column of content inside the innermost block collection. -/
def least (s : Scan) : Nat :=
  match s.columns with
  | [] => 0
  | column :: _ => column + 1

/-- Adds a token that reaches up to `p`. -/
def addTo (p : Place) (t : Token) (s : Scan) : Scan :=
  { s with place := p, tokens := s.tokens.push t }

/-- Passes blanks, comments and line breaks. Outside brackets a new line may begin with a key, and
no tab may stand where a key may begin. -/
def passSpace (brackets : Bool) : Bool → Bool → Nat → Nat → List Char → Place × Bool
  | keyAllowed, _, line, column, [] => (⟨line, column, []⟩, keyAllowed)
  | keyAllowed, comment, line, column, c :: cs =>
    if isBreak c then passSpace brackets (keyAllowed || !brackets) false (line + 1) 0 cs
    else if comment || c = ' ' || (c = '\t' && (brackets || !keyAllowed)) then
      passSpace brackets keyAllowed comment line (column + 1) cs
    else if c = '#' then passSpace brackets keyAllowed true line (column + 1) cs
    else (⟨line, column, c :: cs⟩, keyAllowed)

/-- The scan at the next content. -/
def atContent (s : Scan) : Scan :=
  let p := s.place
  let (place, keyAllowed) := passSpace s.inBrackets s.keyAllowed false p.line p.column p.rest
  { s with place, keyAllowed }

/-- A start from which a colon at this place makes a key; a key is no longer than 1024 characters
and stands in one line. A start that is out of reach is dropped, which no required one may be. -/
def reach? (p : Place) : Option KeyStart → Option (Option KeyStart)
  | none => some none
  | some k =>
    if k.line = p.line ∧ p.column ≤ k.column + 1024 then some (some k)
    else if k.required then none
    else some none

/-- Drops the starts that are out of reach. -/
def dropFar? (s : Scan) : Option Scan := do
  let start ← reach? s.place s.start
  let outer ← s.outer.mapM (reach? s.place)
  some { s with start, outer }

/-- Drops the start inside the innermost brackets. -/
def dropStart? (s : Scan) : Option Scan :=
  if s.start.any (·.required) then none else some { s with start := none }

/-- Lets a key begin here, if one may. -/
def markStart? (s : Scan) : Option Scan :=
  if s.keyAllowed then
    let column := s.place.column
    let required := !s.inBrackets && s.columns.head? = some column
    s.dropStart?.map fun s =>
      { s with start := some ⟨s.tokens.size, s.place.line, column, required⟩ }
  else some s

/-- Opens a block collection in this column, if it is right of the open ones. -/
def openBlock (column index : Nat) (t : Token) (s : Scan) : Scan :=
  if !s.inBrackets && s.least ≤ column then
    { s with columns := column :: s.columns, tokens := s.tokens.insertIdxIfInBounds index t }
  else s

/-- Closes the block collections in columns of this kind, from the innermost on. -/
def closeBlocks (closes : Nat → Bool) (s : Scan) : Scan :=
  if s.inBrackets then s else
    let closed := s.columns.takeWhile closes
    { s with
      columns := s.columns.drop closed.length
      tokens := s.tokens ++ Array.replicate closed.length Token.blockEnd }

/-- A directive or a document marker, with which no block collection goes on. -/
def atDocument? (s : Scan) : Option Scan :=
  (s.closeBlocks fun _ => true).dropStart?.map fun s => { s with keyAllowed := false }

/-- A mark that opens brackets. -/
def bracketsOpen? (t : Token) (s : Scan) : Option Scan :=
  s.markStart?.map fun s =>
    { s.addTo s.place.next t with keyAllowed := true, start := none, outer := s.start :: s.outer }

/-- A mark that closes brackets. -/
def bracketsClose? (t : Token) (s : Scan) : Option Scan :=
  s.dropStart?.map fun s =>
    { s.addTo s.place.next t with
      keyAllowed := false, start := s.outer.head?.getD s.start, outer := s.outer.tail }

def comma? (s : Scan) : Option Scan :=
  s.dropStart?.map fun s => { s.addTo s.place.next .comma with keyAllowed := true }

/-- The dash of a list item. -/
def dash? (s : Scan) : Option Scan :=
  if !s.inBrackets && !s.keyAllowed then none
  else (s.openBlock s.place.column s.tokens.size .blockList).dropStart?.map fun s =>
    { s.addTo s.place.next .dash with keyAllowed := true }

/-- The question mark of a key. -/
def keyMark? (s : Scan) : Option Scan :=
  if !s.inBrackets && !s.keyAllowed then none
  else (s.openBlock s.place.column s.tokens.size .blockTable).dropStart?.map fun s =>
    { s.addTo s.place.next .key with keyAllowed := !s.inBrackets }

/-- The colon of a value, behind a key without a mark if one may have begun. -/
def colon? (s : Scan) : Option Scan :=
  match s.start with
  | some k =>
    let s := { s with tokens := s.tokens.insertIdxIfInBounds k.index Token.key }
    let s := s.openBlock k.column k.index .blockTable
    some { s.addTo s.place.next .value with keyAllowed := false, start := none }
  | none =>
    if !s.inBrackets && !s.keyAllowed then none
    else
      let s := s.openBlock s.place.column s.tokens.size .blockTable
      some { s.addTo s.place.next .value with keyAllowed := !s.inBrackets }

/-- An anchor or alias, up to a character that can follow one. -/
def name? (token : List Char → Token) (s : Scan) : Option Scan := do
  let name := (s.place.rest.drop 1).takeWhile isNameChar
  let p := s.place.drop (name.length + 1)
  if name.isEmpty ∨
      !(endsWord p.rest || p.rest.head?.any ("?:,]\x7d%@\x60".toList.contains ·)) then none
  let s ← s.markStart?
  some { s.addTo p (token name) with keyAllowed := false }

def tag? (s : Scan) : Option Scan := do
  let (t, rest) ← writtenTag? s.inBrackets s.place.rest
  let s ← s.markStart?
  some { s.addTo (s.place.atRest rest) (.tag t) with keyAllowed := false }

def block? (style : Style) (s : Scan) : Option Scan := do
  let s ← s.dropStart?
  let (text, rest) ← Yaml.block? style s.least (s.place.rest.drop 1)
  some { s.addTo (s.place.atRest rest) (.scalar style text) with keyAllowed := true }

def quoted? (s : Scan) : Option Scan := do
  let (text, p) ← Yaml.quoted? s.place
  let s ← s.markStart?
  some { s.addTo p (.scalar .quoted text) with keyAllowed := false }

/-- A plain text. If it goes on to a new line, a key may begin there. -/
def plain? (s : Scan) : Option Scan := do
  let (text, broken, p) ← Yaml.plain? s.inBrackets s.least (s.place.rest.length + 1) s.place
  let s ← s.markStart?
  some { s.addTo p (.scalar .plain text) with keyAllowed := broken }

/-- Whether a plain text can start with this character before that text. -/
def startsPlain (brackets : Bool) (c : Char) (cs : List Char) : Bool :=
  if c = '-' then !cs.head?.any isBlank
  else if c = '?' ∨ c = ':' then !brackets && !endsWord cs
  else !(isBlank c || isBreak c || isBracketMark c || "#&*!|>'\"%@\x60".toList.contains c)

/-- Adds the token that begins with this character at the place. -/
def token? (c : Char) (cs : List Char) (s : Scan) : Option Scan :=
  let brackets := s.inBrackets
  let startsWord := brackets || endsWord cs
  if s.place.column = 0 ∧ c = '%' then do
    let s ← s.atDocument?
    let (d, rest) ← directive? cs
    some (s.addTo (s.place.atRest rest) (.directive d))
  else if atMarker s.place then
    s.atDocument?.map fun s =>
      s.addTo (s.place.drop 3) (if c = '-' then .documentStart else .documentEnd)
  else if c = '[' then s.bracketsOpen? .openList
  else if c = '\x7b' then s.bracketsOpen? .openTable
  else if c = ']' then s.bracketsClose? .closeList
  else if c = '\x7d' then s.bracketsClose? .closeTable
  else if c = ',' then s.comma?
  else if c = '-' ∧ endsWord cs then s.dash?
  else if c = '?' ∧ startsWord then s.keyMark?
  else if c = ':' ∧ startsWord then s.colon?
  else if c = '*' then s.name? .link
  else if c = '&' then s.name? .anchor
  else if c = '!' then s.tag?
  else if c = '|' ∧ !brackets then s.block? .literal
  else if c = '>' ∧ !brackets then s.block? .folded
  else if c = '\'' ∨ c = '"' then s.quoted?
  else if startsPlain brackets c cs then s.plain?
  else none

/-- All tokens from here on; at most `fuel` of them. -/
def run? : Nat → Scan → Option (List Token)
  | 0, _ => none
  | fuel + 1, s => do
    let s ← s.atContent.dropFar?
    let s := s.closeBlocks (s.place.column < ·)
    match s.place.rest with
    | [] => s.atDocument?.map (·.tokens.toList)
    | c :: cs => run? fuel (← s.token? c cs)

end Scan

/-- Whether a YAML text may have the character in it. -/
def isPermitted (c : Char) : Bool :=
  let n := c.toNat
  c = '\t' || c = '\n' || c = '\r' || n = 0x85 || (0x20 ≤ n && n ≤ 0x7e) ||
    (0xa0 ≤ n && n ≤ 0xfffd) || 0x10000 ≤ n

/-- The text with a line feed for every line break of one line to the next. -/
def plainBreaks : List Char → List Char
  | [] => []
  | '\r' :: '\n' :: cs => '\n' :: plainBreaks cs
  | c :: cs => (if c = '\r' ∨ c.toNat = 0x85 then '\n' else c) :: plainBreaks cs

/-- The tokens of a text. A byte order mark at its start takes a column. -/
def tokens? (cs : List Char) : Option (List Token) :=
  if cs.all isPermitted then
    let place : Place :=
      match plainBreaks cs with
      | '\ufeff' :: cs => ⟨0, 1, cs⟩
      | cs => ⟨0, 0, cs⟩
    Scan.run? (cs.length + 1) { place }
  else none

end Phrasebook.Yaml
