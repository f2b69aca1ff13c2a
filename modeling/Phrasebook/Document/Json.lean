import Phrasebook.Document
import Phrasebook.Number.Reading

/-!
# JSON documents

`Document.ofJson?` reads a JSON text. Integers that fit 64 bits, signed or not, stay exact; every
other number is a 64-bit floating-point number, the bare `-0` included.
-/

namespace Phrasebook.Json

/-- The blanks between the tokens of a JSON text. -/
def isSpace (c : Char) : Bool :=
  c = ' ' || c = '\t' || c = '\n' || c = '\r'

def skipSpace (cs : List Char) : List Char :=
  cs.dropWhile isSpace

/-- The value of a hexadecimal digit. -/
def hexDigit? (c : Char) : Option Nat :=
  let n := c.toNat
  if 48 ≤ n ∧ n ≤ 57 then some (n - 48)
  else if 65 ≤ n ∧ n ≤ 70 then some (n - 55)
  else if 97 ≤ n ∧ n ≤ 102 then some (n - 87)
  else none

/-- The code unit written by four hexadecimal digits, and the rest. -/
def hexUnit? : List Char → Option (Nat × List Char)
  | a :: b :: c :: d :: rest => do
    let a ← hexDigit? a
    let b ← hexDigit? b
    let c ← hexDigit? c
    let d ← hexDigit? d
    some (((a * 16 + b) * 16 + c) * 16 + d, rest)
  | _ => none

/-- The character that an escape stands for, read after the backslash; half of a surrogate pair
stands for none. -/
def escape? : List Char → Option (Option Char × List Char)
  | '"' :: rest => some (some '"', rest)
  | '\\' :: rest => some (some '\\', rest)
  | '/' :: rest => some (some '/', rest)
  | 'b' :: rest => some (some (Char.ofNat 8), rest)
  | 'f' :: rest => some (some (Char.ofNat 12), rest)
  | 'n' :: rest => some (some '\n', rest)
  | 'r' :: rest => some (some '\r', rest)
  | 't' :: rest => some (some '\t', rest)
  | 'u' :: rest => do
    let (unit, rest) ← hexUnit? rest
    if unit < 0xD800 ∨ 0xDFFF < unit then some (some (Char.ofNat unit), rest)
    else if 0xDC00 ≤ unit then some (none, rest)
    else match rest with
      | '\\' :: 'u' :: after =>
        let (low, after) ← hexUnit? after
        if 0xDC00 ≤ low ∧ low ≤ 0xDFFF then
          some (some (Char.ofNat (0x10000 + (unit - 0xD800) * 0x400 + (low - 0xDC00))), after)
        else some (none, rest)
      | _ => some (none, rest)
  | _ => none

/-- The characters up to the closing quote and the rest; the characters are `none` if one of them
is half of a surrogate pair. `fuel` bounds the length of the text. -/
def stringBody : Nat → List Char → Option (Option (List Char) × List Char)
  | 0, _ => none
  | _ + 1, [] => none
  | fuel + 1, c :: cs =>
    if c = '"' then some (some [], cs)
    else if c = '\\' then do
      let (char, rest) ← escape? cs
      let (chars, rest) ← stringBody fuel rest
      some (char.bind fun ch => chars.map (ch :: ·), rest)
    else if c.toNat < 32 then none
    else do
      let (chars, rest) ← stringBody fuel cs
      some (chars.map (c :: ·), rest)

/-- A number, read from its first character. -/
def number? (cs : List Char) : Option (Document × List Char) := do
  let (negative, body) := match cs with
    | '-' :: rest => (true, rest)
    | _ => (false, cs)
  let (whole, rest) := spanDigits body
  if whole.isEmpty || (whole.length != 1 && whole.head? = some '0') then none
  let (places, rest) ← match rest with
    | '.' :: after =>
      let (places, after) := spanDigits after
      if places.isEmpty then none else some (some places, after)
    | _ => some (none, rest)
  let (exponent, rest) ← match rest with
    | c :: after =>
      if c = 'e' ∨ c = 'E' then
        let (down, after) := spanSign after
        let (ds, after) := spanDigits after
        if ds.isEmpty then none
        else some (some (if down then -(digitsValue ds : Int) else digitsValue ds), after)
      else some (none, rest)
    | [] => some (none, rest)
  let n := digitsValue whole
  let exact := places.isNone && exponent.isNone &&
    (if negative then n != 0 && n ≤ Nat.pow 2 63 else n < Nat.pow 2 64)
  if exact then some (.int (if negative then -(n : Int) else n), rest)
  else
    let ps := places.getD []
    let x := floatOfDecimal (digitsValue (whole ++ ps)) (exponent.getD 0 - ps.length)
    some (.float (if negative then -x else x), rest)

/-- What follows `word` at the start of the text. -/
def afterWord? (word : List Char) (cs : List Char) : Option (List Char) :=
  if word.isPrefixOf cs then some (cs.drop word.length) else none

mutual

/-- A value at the start of the text, after blanks. -/
def value? : Nat → List Char → Option (Document × List Char)
  | 0, _ => none
  | fuel + 1, cs =>
    match skipSpace cs with
    | [] => none
    | c :: rest =>
      if c = '\x7b' then
        match skipSpace rest with
        | '\x7d' :: rest => some (.table [], rest)
        | rest => do
          let (entries, rest) ← entries? fuel rest
          some (.table entries, rest)
      else if c = '[' then
        match skipSpace rest with
        | ']' :: rest => some (.list [], rest)
        | rest => do
          let (items, rest) ← items? fuel rest
          some (.list items, rest)
      else if c = '"' then do
        let (chars, rest) ← stringBody (rest.length + 1) rest
        some ((chars.map fun cs => Document.text (String.ofList cs)).getD .broken, rest)
      else if c = 't' then (afterWord? ['r', 'u', 'e'] rest).map fun r => (.bool true, r)
      else if c = 'f' then (afterWord? ['a', 'l', 's', 'e'] rest).map fun r => (.bool false, r)
      else if c = 'n' then (afterWord? ['u', 'l', 'l'] rest).map fun r => (.null, r)
      else number? (c :: rest)

/-- The items of a list, at least one, up to its closing bracket. -/
def items? : Nat → List Char → Option (List Document × List Char)
  | 0, _ => none
  | fuel + 1, cs => do
    let (item, rest) ← value? fuel cs
    match skipSpace rest with
    | ',' :: rest =>
      let (items, rest) ← items? fuel rest
      some (item :: items, rest)
    | ']' :: rest => some ([item], rest)
    | _ => none

/-- The entries of a table, at least one, up to its closing brace. -/
def entries? : Nat → List Char → Option (List (Option String × Document) × List Char)
  | 0, _ => none
  | fuel + 1, cs =>
    match skipSpace cs with
    | '"' :: rest => do
      let (key, rest) ← stringBody (rest.length + 1) rest
      let key := key.map String.ofList
      match skipSpace rest with
      | ':' :: rest =>
        let (item, rest) ← value? fuel rest
        match skipSpace rest with
        | ',' :: rest =>
          let (entries, rest) ← entries? fuel rest
          some ((key, item) :: entries, rest)
        | '\x7d' :: rest => some ([(key, item)], rest)
        | _ => none
      | _ => none
    | _ => none

end

end Phrasebook.Json

/-- The document that a JSON text says; nothing but blanks may follow it. -/
def Phrasebook.Document.ofJson? (text : String) : Option Phrasebook.Document :=
  match Phrasebook.Json.value? (text.length + 1) text.toList with
  | some (d, rest) => if (Phrasebook.Json.skipSpace rest).isEmpty then some d else none
  | none => none
