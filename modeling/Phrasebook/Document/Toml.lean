import Phrasebook.Document.Toml.Scalar
import Phrasebook.Document.Toml.Tree

/-!
# TOML documents

`Toml.ofText?` reads a TOML text. Each line assigns a value to a key or opens a table; the lines
together build the document. Keys have fewer than 80 parts, and so many lists and tables in braces
at most stand inside each other.
-/

namespace Phrasebook.Toml

def isBlank (c : Char) : Bool :=
  c = ' ' || c = '\t'

def skipBlank (cs : List Char) : List Char :=
  cs.dropWhile isBlank

/-- The rest of the line is left out after a number sign. -/
def skipComment : List Char → List Char
  | '#' :: rest => rest.dropWhile (· != '\n')
  | cs => cs

/-- The next line, if nothing but blanks and a comment is left of this one. -/
def lineEnd? (cs : List Char) : Option (List Char) :=
  match skipComment (skipBlank cs) with
  | [] => some []
  | '\n' :: rest => some rest
  | _ => none

/-- Skips blanks, comments and line breaks; at most `fuel` lines. -/
def skipLines : Nat → List Char → List Char
  | 0, cs => cs
  | fuel + 1, cs =>
    match skipComment (skipBlank cs) with
    | '\n' :: rest => skipLines fuel rest
    | cs => cs

def isBareKeyChar (c : Char) : Bool :=
  c.isAlphanum || c = '_' || c = '-'

/-- One part of a key, in quotes or not, and the rest. -/
def simpleKey? (cs : List Char) : Option (String × List Char) :=
  match cs with
  | '"' :: rest => (basicBody (rest.length + 1) rest).map fun (k, r) => (String.ofList k, r)
  | '\'' :: rest => (literalBody rest).map fun (k, r) => (String.ofList k, r)
  | cs =>
    let key := cs.takeWhile isBareKeyChar
    if key.isEmpty then none else some (String.ofList key, cs.drop key.length)

/-- Where parts of a key, or values inside each other, become too many. -/
def limit : Nat := 80

/-- The parts of a key with points between them: all but the last, the last, and the rest. There
are at most as many as `fuel`. -/
def dottedKeyWithin? : Nat → List Char → Option (List String × String × List Char)
  | 0, _ => none
  | fuel + 1, cs => do
    let (key, rest) ← simpleKey? (skipBlank cs)
    match skipBlank rest with
    | '.' :: rest =>
      let (keys, last, rest) ← dottedKeyWithin? fuel rest
      some (key :: keys, last, rest)
    | rest => some ([], key, rest)

/-- The parts of a key of less than the limit. -/
def dottedKey? (cs : List Char) : Option (List String × String × List Char) :=
  dottedKeyWithin? (limit - 1) cs

/-- A key, an equals sign, and what follows them. -/
def assignment? (cs : List Char) : Option (List String × String × List Char) := do
  let (keys, key, rest) ← dottedKey? cs
  match rest with
  | '=' :: rest => some (keys, key, skipBlank rest)
  | _ => none

mutual

/-- A value at the start of the text, inside `depth` lists and tables, and the rest. -/
def value? : Nat → Nat → List Char → Option (Node × List Char)
  | 0, _, _ => none
  | fuel + 1, depth, cs =>
    match cs with
    | '[' :: rest => do
      if limit ≤ depth + 1 then none
      let (items, rest) ← items? fuel (depth + 1) rest
      some (.list items, rest)
    | '\x7b' :: rest => do
      if limit ≤ depth + 1 then none
      let (lines, rest) ← match skipBlank rest with
        | '\x7d' :: rest => some ([], rest)
        | rest => entries? fuel (depth + 1) rest
      (ofStatements lines).map fun entries => (.closed (closeEntries entries), rest)
    | '"' :: _ => (quoted? cs).map fun (s, rest) => (.text (String.ofList s), rest)
    | '\'' :: _ => (quoted? cs).map fun (s, rest) => (.text (String.ofList s), rest)
    | _ => word? cs

/-- The items of a list up to its closing bracket. -/
def items? : Nat → Nat → List Char → Option (List Node × List Char)
  | 0, _, _ => none
  | fuel + 1, depth, cs =>
    match skipLines (cs.length + 1) cs with
    | ']' :: rest => some ([], rest)
    | start => do
      let (item, rest) ← value? fuel depth start
      match skipLines (rest.length + 1) rest with
      | ',' :: rest =>
        let (items, rest) ← items? fuel depth rest
        some (item :: items, rest)
      | ']' :: rest => some ([item], rest)
      | _ => none

/-- The entries of a table in one line, at least one, up to its closing brace. -/
def entries? : Nat → Nat → List Char → Option (List Statement × List Char)
  | 0, _, _ => none
  | fuel + 1, depth, cs => do
    let (keys, key, rest) ← assignment? cs
    let (n, rest) ← value? fuel depth rest
    match skipBlank rest with
    | ',' :: rest =>
      let (lines, rest) ← entries? fuel depth rest
      some (.assign keys key n :: lines, rest)
    | '\x7d' :: rest => some ([.assign keys key n], rest)
    | _ => none

end

/-- What the line at the start of the text says, and the lines after it. -/
def statement? (cs : List Char) : Option (Statement × List Char) :=
  match cs with
  | '[' :: '[' :: rest => do
    let (keys, key, rest) ← dottedKey? rest
    match rest with
    | ']' :: ']' :: rest => (lineEnd? rest).map fun next => (.item keys key, next)
    | _ => none
  | '[' :: rest => do
    let (keys, key, rest) ← dottedKey? rest
    match rest with
    | ']' :: rest => (lineEnd? rest).map fun next => (.table keys key, next)
    | _ => none
  | cs => do
    let (keys, key, rest) ← assignment? cs
    let (n, rest) ← value? (rest.length + 1) 0 rest
    (lineEnd? rest).map fun next => (.assign keys key n, next)

/-- The lines of a text; at most `fuel` of them. -/
def statements? : Nat → List Char → Option (List Statement)
  | 0, _ => none
  | fuel + 1, cs =>
    match skipLines (cs.length + 1) cs with
    | [] => some []
    | start => do
      let (line, next) ← statement? start
      let lines ← statements? fuel next
      some (line :: lines)

/-- The text with every line ending in a line feed alone; `none` if it has a control character. -/
def plainLines? : List Char → Option (List Char)
  | [] => some []
  | '\r' :: '\n' :: cs => (plainLines? cs).map ('\n' :: ·)
  | c :: cs =>
    if c = '\t' ∨ c = '\n' ∨ (32 ≤ c.toNat ∧ c.toNat ≠ 127) then (plainLines? cs).map (c :: ·)
    else none

/-- The table that a text without a byte order mark says. -/
def ofChars? (cs : List Char) : Option Node := do
  let cs ← plainLines? cs
  let lines ← statements? (cs.length + 1) cs
  (ofStatements lines).map (.table .header)

/-- The table that a text says. -/
def ofText? (text : String) : Option Node :=
  match text.toList with
  | '\ufeff' :: cs => ofChars? cs
  | cs => ofChars? cs

end Phrasebook.Toml
