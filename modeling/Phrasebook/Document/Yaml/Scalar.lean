import Phrasebook.Document.Json
import Phrasebook.Document.Yaml.Place

/-!
# Scalars

The texts of a YAML document: plain, in quotes, or as a block of lines. A plain or quoted text that
goes over several lines is folded into one.
-/

namespace Phrasebook.Yaml

/-- How a scalar is written. -/
inductive Style where
  | plain
  | quoted
  | literal
  | folded
  deriving DecidableEq, Repr

/-! ### Plain texts -/

/-- The characters that bring structure into brackets. -/
def isBracketMark (c : Char) : Bool :=
  c = ',' || c = '[' || c = ']' || c = '\x7b' || c = '\x7d'

/-- The rest of a word of a plain text: up to a blank, to a colon that ends a word, or to a mark
inside brackets; `none` if a colon has such a mark behind it there. -/
def plainWord? (brackets : Bool) : List Char → Option (List Char)
  | [] => some []
  | c :: cs =>
    if isBlank c ∨ isBreak c then some []
    else if brackets ∧ c = ':' ∧ cs.head?.any fun d => isBracketMark d || d = '?' then none
    else if (c = ':' ∧ endsWord cs) ∨ (brackets ∧ isBracketMark c) then some []
    else (plainWord? brackets cs).map (c :: ·)

/-- Whether a plain text ends before the content at this place. -/
def endsPlain (brackets : Bool) (least : Nat) (p : Place) : Bool :=
  atMarker p || p.rest.head? = some '#' || (!brackets && p.column < least)

/-- A plain text, whether a line break follows it, and the place of the next content. Outside
brackets its further lines are indented to the column `least`. -/
def plain? (brackets : Bool) (least : Nat) : Nat → Place → Option (List Char × Bool × Place)
  | 0, _ => none
  | fuel + 1, p => do
    let word ← plainWord? brackets p.rest
    let p := p.drop word.length
    let g ← gap? least p
    if g.text.isEmpty then some (word, false, p)
    else if endsPlain brackets least g.next then some (word, !g.breaks.isEmpty, g.next)
    else
      let (more, broken, p) ← plain? brackets least fuel g.next
      if more.isEmpty then some (word, !g.breaks.isEmpty, p)
      else some (word ++ g.text ++ more, broken, p)

/-! ### Quoted texts -/

/-- The character with the code that `n` hexadecimal digits write, and the rest. -/
def hexChar? (n : Nat) (cs : List Char) : Option (Char × List Char) := do
  if cs.length < n then none
  let ds ← (cs.take n).mapM Json.hexDigit?
  let code := ds.foldl (fun n d => 16 * n + d) 0
  if h : code.isValidChar then some (Char.ofNatAux code h, cs.drop n) else none

/-- The characters that an escape of one letter stands for. -/
def escapes : List (Char × Char) :=
  [('0', '\x00'), ('a', '\x07'), ('b', '\x08'), ('t', '\t'), ('\t', '\t'), ('n', '\n'),
    ('v', '\x0b'), ('f', '\x0c'), ('r', '\r'), ('e', '\x1b'), (' ', ' '), ('"', '"'), ('/', '/'),
    ('\\', '\\'), ('N', '\u0085'), ('_', '\u00a0'), ('L', '\u2028'), ('P', '\u2029')]

/-- The character that an escape stands for, read after the backslash, and the rest. -/
def escape? : List Char → Option (Char × List Char)
  | [] => none
  | c :: rest =>
    if c = 'x' then hexChar? 2 rest
    else if c = 'u' then hexChar? 4 rest
    else if c = 'U' then hexChar? 8 rest
    else (escapes.lookup c).map fun ch => (ch, rest)

/-- The character that a text in double quotes has next, and the rest. -/
def doubleChar? : List Char → Option (Option Char × List Char)
  | '"' :: _ => none
  | '\\' :: rest =>
    if rest.head?.any isBreak then some (none, rest.drop 1)
    else (escape? rest).map fun (c, rest) => (some c, rest)
  | c :: rest => some (some c, rest)
  | [] => none

/-- The character that a text in single quotes has next, and the rest. Two quotes stand for one. -/
def singleChar? : List Char → Option (Option Char × List Char)
  | '\'' :: '\'' :: rest => some (some '\'', rest)
  | '\'' :: _ => none
  | c :: rest => some (some c, rest)
  | [] => none

/-- The text up to its closing quote, folded, and the place behind the quote. Where `char?` gives
no character, the line is joined with the next one. -/
def quotedBody? (quote : Char) (char? : List Char → Option (Option Char × List Char)) :
    Nat → Place → Option (List Char × Place)
  | 0, _ => none
  | fuel + 1, p =>
    if atMarker p then none
    else do
      let g ← gap? 0 p
      if !g.text.isEmpty then
        let (text, p) ← quotedBody? quote char? fuel g.next
        some (g.text ++ text, p)
      else match char? p.rest with
        | some (some c, rest) =>
          let (text, p) ← quotedBody? quote char? fuel (p.atRest rest)
          some (c :: text, p)
        | some (none, rest) =>
          let g ← gap? 0 (p.atRest rest)
          let (text, p) ← quotedBody? quote char? fuel g.next
          some (g.breaks ++ text, p)
        | none => if p.rest.head? = some quote then some ([], p.next) else none

/-- A text in double or single quotes, and the place behind it. -/
def quoted? (p : Place) : Option (List Char × Place) :=
  match p.rest with
  | '"' :: rest => quotedBody? '"' doubleChar? (rest.length + 1) p.next
  | '\'' :: rest => quotedBody? '\'' singleChar? (rest.length + 1) p.next
  | _ => none

/-! ### Blocks of lines -/

/-- What becomes of the line breaks at the end of a block. -/
inductive Chomping where
  | strip
  | clip
  | keep
  deriving DecidableEq, Repr

/-- The chomping and the indentation that the head of a block gives. -/
structure BlockHead where
  chomping : Chomping := .clip
  indent : Option Nat := none

def chomping? : Char → Option Chomping
  | '+' => some .keep
  | '-' => some .strip
  | _ => none

/-- The indentation that a digit gives. A zero gives none, and no line may have it. -/
def indent? (c : Char) : Option Nat :=
  if c.isDigit ∧ c ≠ '0' then some (c.toNat - 48) else none

/-- Chomping and indentation behind the mark of a block, in either order. -/
def blockHead : List Char → BlockHead × List Char
  | c :: d :: rest =>
    match chomping? c, indent? d, indent? c, chomping? d with
    | some k, some n, _, _ => (⟨k, some n⟩, rest)
    | some k, none, _, _ => (⟨k, none⟩, d :: rest)
    | none, _, some n, some k => (⟨k, some n⟩, rest)
    | none, _, some n, none => (⟨.clip, some n⟩, d :: rest)
    | none, _, none, _ => ({}, c :: d :: rest)
  | [c] =>
    match chomping? c, indent? c with
    | some k, _ => (⟨k, none⟩, [])
    | none, some n => (⟨.clip, some n⟩, [])
    | none, none => ({}, [c])
  | [] => ({}, [])

/-- The indentation of a block whose head gives none: the widest of its first lines up to the first
with content. -/
def blockIndent? : Nat → Nat → List Char → Option Nat
  | 0, _, _ => none
  | fuel + 1, widest, cs =>
    let spaces := cs.takeWhile (· == ' ')
    let widest := max widest spaces.length
    match cs.drop spaces.length with
    | [] => some widest
    | c :: rest =>
      if isBreak c then blockIndent? fuel widest rest else if c = '\t' then none else some widest

/-- A line of a block: the line breaks before it, its text, and the line break that ends it. -/
structure BlockLine where
  before : List Char
  text : List Char
  ending : List Char

/-- The lines of a block that are indented to `column`, the line breaks after them, and the rest. -/
def blockLines? (column : Nat) : Nat → List Char → List Char →
    Option (List BlockLine × List Char × List Char)
  | 0, _, _ => none
  | fuel + 1, before, cs =>
    let spaces := (cs.takeWhile (· == ' ')).take column
    match cs.drop spaces.length with
    | [] => some ([], before, [])
    | c :: rest =>
      if isBreak c then blockLines? column fuel (before ++ [c]) rest
      else if spaces.length < column then
        if c = '\t' then none else some ([], before, cs)
      else do
        let text := (c :: rest).takeWhile (!isBreak ·)
        let after := (c :: rest).drop text.length
        let (lines, trailing, rest) ← blockLines? column fuel [] (after.drop 1)
        some (⟨before, text, after.take 1⟩ :: lines, trailing, rest)

/-- The text of a block so far, the line break that is due, and whether the last line began with a
blank. -/
structure BlockText where
  text : List Char := []
  due : List Char := []
  wide : Bool := false

/-- Adds a line. In a folded block a line feed between two lines is a blank, or is left out before
further line breaks, unless one of the lines begins with a blank. -/
def BlockText.add (style : Style) (b : BlockText) (l : BlockLine) : BlockText :=
  let wide := l.text.head?.any isBlank
  let between :=
    if style = .folded && b.due = ['\n'] && !b.wide && !wide then folded (b.due ++ l.before)
    else b.due ++ l.before
  ⟨b.text ++ between ++ l.text, l.ending, wide⟩

/-- The line breaks at the end of a block. -/
def blockEnd (chomping : Chomping) (due trailing : List Char) : List Char :=
  match chomping with
  | .strip => []
  | .clip => due
  | .keep => due ++ trailing

/-- A block of lines inside content indented to `least`, read behind its mark, and the rest. -/
def block? (style : Style) (least : Nat) (cs : List Char) : Option (List Char × List Char) := do
  let (head, rest) := blockHead cs
  let body ← afterLine? rest
  let column ← match head.indent with
    | some n => some (least - 1 + n)
    | none => (blockIndent? (body.length + 1) 0 body).map fun n => max n (max least 1)
  let (lines, trailing, rest) ← blockLines? column (body.length + 1) [] body
  let text := lines.foldl (BlockText.add style) {}
  some (text.text ++ blockEnd head.chomping text.due trailing, rest)

end Phrasebook.Yaml
