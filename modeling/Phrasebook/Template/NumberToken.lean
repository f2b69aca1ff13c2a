import Phrasebook.Number.Localized
import Phrasebook.Text.Blank
import Phrasebook.Text.Token
import Phrasebook.Text.Word
import Phrasebook.Value

/-!
# Number tokens

A number token names a value and a format, with options behind a colon. `formatTokens` writes the
numbers in the style of a locale; a token whose value is no number stays as written.
-/

namespace Phrasebook

/-- A name, the name of a format, and its options. -/
structure NumberToken where
  name : List Char
  format : List Char
  options : Option (List Char)
  deriving DecidableEq, Repr

namespace NumberToken

/-- The options behind a colon up to the closing brace, or none before a closing brace; and the
length of the text with the brace. -/
def options? : List Char → Option (Option (List Char) × Nat)
  | '\x7d' :: _ => some (none, 1)
  | ':' :: rest =>
    let options := rest.takeWhile (· != '\x7d')
    match options, rest.drop options.length with
    | _ :: _, _ :: _ => some (some options, options.length + 2)
    | _, _ => none
  | _ => none

/-- A number token at the start of the text, and its length. -/
def read? : List Char → Option (NumberToken × Nat)
  | '\x7b' :: rest =>
    let name := rest.takeWhile Text.isWord
    match name, rest.drop name.length with
    | _ :: _, '|' :: rest =>
      let format := rest.takeWhile Text.isWord
      match format, options? (rest.drop format.length) with
      | _ :: _, some (options, n) =>
        some (⟨name, format, options⟩, name.length + format.length + 2 + n)
      | _, _ => none
    | _, _ => none
  | _ => none

/-- The largest number of places that can be written. -/
def placesLimit : Nat := 65535

/-- A count of places: digits, maybe after a plus sign, of at most 64 bits. -/
def places? (cs : List Char) : Option Nat :=
  let ds := match cs with
    | '+' :: rest => rest
    | _ => cs
  (readDigits? ds).bind fun n => if n < Nat.pow 2 64 then some n else none

/-- A number with the asked places, or with at most three; `none` beyond the limit. -/
def decimal (s : NumberStyle) (options : Option (List Char)) (x : Quantity) :
    Option (List Char) :=
  match options.bind places? with
  | some places => if places ≤ placesLimit then some (s.fixed places x) else none
  | none => some (s.trimmed 3 x)

/-- The number as the format asks; an unknown format writes it plainly. -/
def write (s : NumberStyle) (t : NumberToken) (x : Float) : Option (List Char) :=
  let options := t.options.map (Text.trimBy Text.isBlank)
  let q := Quantity.ofFloat x
  if t.format = "number".toList ∨ t.format = "decimal".toList then decimal s options q
  else if t.format = "currency".toList then some (s.currency (options.getD "USD".toList) q)
  else if t.format = "percent".toList then some (s.percent q)
  else if t.format = "compact".toList then some (s.compact x)
  else some (plainChars (Binary64.ofFloat x))

/-- The text in place of a piece; `none` if a number cannot be written. -/
def writePiece (s : NumberStyle) (vars : Vars) : Text.Piece NumberToken → Option (List Char)
  | .char c => some [c]
  | .token t source =>
    match (Dictionary.find? (String.ofList t.name) vars).bind Value.number? with
    | some x => write s t x
    | none => some source

/-- Whether the text has a number token. -/
def occursIn (cs : List Char) : Bool :=
  (Text.tokens read? cs).any fun
    | .token _ _ => true
    | .char _ => false

/-- The text with its number tokens written; `none` if one cannot be written. -/
def formatTokens (locale : String) (vars : Vars) (text : String) : Option String :=
  ((Text.tokens read? text.toList).mapM (writePiece (NumberStyle.of locale) vars)).map fun ps =>
    String.ofList ps.flatten

end NumberToken

end Phrasebook
