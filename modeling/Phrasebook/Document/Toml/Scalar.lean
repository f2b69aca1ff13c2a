import Phrasebook.Document.Json
import Phrasebook.Document.Toml.Moment
import Phrasebook.Document.Toml.Tree
import Phrasebook.Text.Split

/-!
# Texts and numbers

The values of a TOML text that are no lists or tables. Quotes make texts, in one line or in several,
with escapes or without; any other value is a single word.
-/

namespace Phrasebook.Toml

/-- The character with this code, written by hexadecimal digits. -/
def charOf? (digits : List Char) : Option Char :=
  (digits.mapM Json.hexDigit?).bind fun ds =>
    let n := ds.foldl (fun n d => 16 * n + d) 0
    if h : n.isValidChar then some (Char.ofNatAux n h) else none

/-- The character that an escape stands for, read after the backslash, and the rest. -/
def escape? : List Char → Option (Char × List Char)
  | [] => none
  | c :: rest =>
    if c = 'u' ∧ 4 ≤ rest.length then (charOf? (rest.take 4)).map fun ch => (ch, rest.drop 4)
    else if c = 'U' ∧ 8 ≤ rest.length then (charOf? (rest.take 8)).map fun ch => (ch, rest.drop 8)
    else ([('b', Char.ofNat 8), ('t', '\t'), ('n', '\n'), ('f', Char.ofNat 12), ('r', '\r'),
      ('"', '"'), ('\\', '\\')].lookup c).map fun ch => (ch, rest)

/-- The characters up to a closing double quote in the same line, and the rest. -/
def basicBody : Nat → List Char → Option (List Char × List Char)
  | 0, _ => none
  | _ + 1, [] => none
  | fuel + 1, c :: cs =>
    if c = '"' then some ([], cs)
    else if c = '\n' then none
    else do
      let (char, rest) ← if c = '\\' then escape? cs else some (c, cs)
      let (chars, rest) ← basicBody fuel rest
      some (char :: chars, rest)

/-- The characters up to a closing single quote in the same line, and the rest. -/
def literalBody (cs : List Char) : Option (List Char × List Char) :=
  let body := cs.takeWhile fun c => c != '\'' && c != '\n'
  match cs.drop body.length with
  | '\'' :: rest => some (body, rest)
  | _ => none

/-- What follows a backslash at the end of a line: the text from the next character that is no
blank. -/
def afterLineEnd? (cs : List Char) : Option (List Char) :=
  match cs.dropWhile fun c => c = ' ' || c = '\t' with
  | '\n' :: rest => some (rest.dropWhile fun c => c = ' ' || c = '\t' || c = '\n')
  | _ => none

/-- The characters up to three closing quotes, and the rest. Up to two more quotes before these
belong to the text. -/
def multilineBody (quote : Char) (escapes : Bool) : Nat → List Char →
    Option (List Char × List Char)
  | 0, _ => none
  | _ + 1, [] => none
  | fuel + 1, c :: cs =>
    let quotes := (c :: cs).takeWhile (· == quote)
    if 3 ≤ quotes.length then
      let n := min quotes.length 5
      some (List.replicate (n - 3) quote, (c :: cs).drop n)
    else if c = '\\' ∧ escapes then
      match afterLineEnd? cs with
      | some rest => multilineBody quote escapes fuel rest
      | none => do
        let (char, rest) ← escape? cs
        let (chars, rest) ← multilineBody quote escapes fuel rest
        some (char :: chars, rest)
    else do
      let (chars, rest) ← multilineBody quote escapes fuel cs
      some (c :: chars, rest)

/-- A text in quotes at the start, and the rest. A line break right after three opening quotes is
left out. -/
def quoted? (cs : List Char) : Option (List Char × List Char) :=
  let body : List Char → List Char := fun
    | '\n' :: rest => rest
    | rest => rest
  match cs with
  | '"' :: '"' :: '"' :: rest => multilineBody '"' true (rest.length + 1) (body rest)
  | '\'' :: '\'' :: '\'' :: rest => multilineBody '\'' false (rest.length + 1) (body rest)
  | '"' :: rest => basicBody (rest.length + 1) rest
  | '\'' :: rest => literalBody rest
  | _ => none

/-- The digits of a text in which single underscores may stand between digits. -/
def joined? (isDigit : Char → Bool) (cs : List Char) : Option (List Char) :=
  let groups := Text.pieces '_' cs
  if groups.all fun g => !g.isEmpty && g.all isDigit then some groups.flatten else none

/-- The digits of a whole number, without a zero in front. -/
def wholeDigits? (cs : List Char) : Option (List Char) :=
  (joined? Char.isDigit cs).bind fun ds =>
    if ds.length = 1 ∨ ds.head? ≠ some '0' then some ds else none

/-- The number that digits of a base write. -/
def inBase? (base : Nat) (cs : List Char) : Option Nat :=
  (joined? (fun c => (Json.hexDigit? c).any (· < base)) cs).bind fun ds =>
    (ds.mapM Json.hexDigit?).map (·.foldl (fun n d => base * n + d) 0)

/-- A whole number that fits 64 bits. -/
def integer? (cs : List Char) : Option Int :=
  let value? : Option Int := match cs with
    | '0' :: 'x' :: rest => (inBase? 16 rest).map Int.ofNat
    | '0' :: 'o' :: rest => (inBase? 8 rest).map Int.ofNat
    | '0' :: 'b' :: rest => (inBase? 2 rest).map Int.ofNat
    | cs =>
      let (negative, rest) := spanSign cs
      (wholeDigits? rest).map fun ds =>
        if negative then -(digitsValue ds : Int) else digitsValue ds
  value?.bind fun n => if -(Int.pow 2 63) ≤ n ∧ n < Int.pow 2 63 then some n else none

/-- The exponent at the end of a number, or zero; and whether there is one. -/
def exponent? : List Char → Option (Bool × Int)
  | [] => some (false, 0)
  | _ :: cs =>
    let (down, rest) := spanSign cs
    (joined? Char.isDigit rest).map fun ds =>
      (true, if down then -(digitsValue ds : Int) else digitsValue ds)

/-- A number with a fraction or an exponent, or one of the words for infinity and not-a-number. A
number too large for a float is not read, but a negative one of that size is minus infinity. -/
def float? (cs : List Char) : Option Float :=
  let (negative, rest) := spanSign cs
  let infinity : Float := Float.ofScientific 1 false 400
  let size? : Option Float :=
    if rest = ['i', 'n', 'f'] then some infinity
    else if rest = ['n', 'a', 'n'] then some (0.0 / 0.0)
    else Option.filter (fun x => negative || x != infinity) do
      let mantissa := rest.takeWhile fun c => c != 'e' && c != 'E'
      let (scaled, e) ← exponent? (rest.drop mantissa.length)
      match Text.pieces '.' mantissa with
      | [whole] =>
        if scaled then some (floatOfDecimal (digitsValue (← wholeDigits? whole)) e) else none
      | [whole, places] =>
        let whole ← wholeDigits? whole
        let places ← joined? Char.isDigit places
        some (floatOfDecimal (digitsValue (whole ++ places)) (e - places.length))
      | _ => none
  size?.map fun x => if negative then -x else x

/-- The characters of a word. -/
def isWordChar (c : Char) : Bool :=
  c.isAlphanum || c = '_' || c = '+' || c = '-' || c = '.' || c = ':'

/-- The text of a date with a time behind a blank at the start of the text. -/
def spacedMoment? (cs : List Char) : Option (List Char) :=
  let day := cs.takeWhile isWordChar
  match cs.drop day.length with
  | ' ' :: rest =>
    let moment := day ++ ' ' :: rest.takeWhile isWordChar
    if isMoment moment then some moment else none
  | _ => none

/-- The value of a word. -/
def ofWord? (word : List Char) : Option Node :=
  if word = "true".toList then some (.bool true)
  else if word = "false".toList then some (.bool false)
  else if isMoment word then some (.moment (String.ofList word))
  else match integer? word with
    | some n => some (.int n)
    | none => (float? word).map .float

/-- A word at the start of the text, and the rest. -/
def word? (cs : List Char) : Option (Node × List Char) :=
  let word := (spacedMoment? cs).getD (cs.takeWhile isWordChar)
  (ofWord? word).map fun d => (d, cs.drop word.length)

end Phrasebook.Toml
