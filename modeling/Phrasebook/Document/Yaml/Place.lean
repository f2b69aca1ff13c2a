/-!
# Places in a YAML text

A place is the rest of a text together with the line and column where it starts. Columns give
indentation its meaning, and lines tell whether a key and its colon stand together.
-/

namespace Phrasebook.Yaml

/-- The rest of a text, and the line and column of its first character. -/
structure Place where
  line : Nat := 0
  column : Nat := 0
  rest : List Char
  deriving DecidableEq, Repr

/-- Whether the character ends a line. -/
def isBreak (c : Char) : Bool :=
  c = '\n' || c = '\u2028' || c = '\u2029'

def isBlank (c : Char) : Bool :=
  c = ' ' || c = '\t'

/-- Whether a word ends here: at a blank, the end of the line or the end of the text. -/
def endsWord : List Char → Bool
  | [] => true
  | c :: _ => isBlank c || isBreak c

/-- Whether the line ends here, or the text. -/
def endsLine : List Char → Bool
  | [] => true
  | c :: _ => isBreak c

/-- Whether the text begins with this mark three times, as a word of its own. -/
def startsMarker (mark : Char) (cs : List Char) : Bool :=
  (List.replicate 3 mark).isPrefixOf cs && endsWord (cs.drop 3)

/-- Whether a document starts or ends here. -/
def atMarker (p : Place) : Bool :=
  p.column = 0 && (startsMarker '-' p.rest || startsMarker '.' p.rest)

/-- The place after one more character. -/
def Place.next (p : Place) : Place :=
  match p.rest with
  | [] => p
  | c :: cs => if isBreak c then ⟨p.line + 1, 0, cs⟩ else ⟨p.line, p.column + 1, cs⟩

/-- The place after `n` more characters of the same line. -/
def Place.drop (p : Place) (n : Nat) : Place :=
  ⟨p.line, p.column + n, p.rest.drop n⟩

/-- The place where `rest` is left. -/
def Place.atRest (p : Place) (rest : List Char) : Place :=
  let passed := p.rest.take (p.rest.length - rest.length)
  let breaks := passed.countP isBreak
  let line := passed.reverse.takeWhile (!isBreak ·)
  ⟨p.line + breaks, if breaks = 0 then p.column + passed.length else line.length, rest⟩

/-- The rest of a line that may end in a comment; `none` if it has other content. -/
def afterLine? (cs : List Char) : Option (List Char) :=
  let cs := cs.dropWhile isBlank
  let cs := if cs.head? = some '#' then cs.dropWhile (!isBreak ·) else cs
  if endsLine cs then some (cs.drop 1) else none

/-- What separates two words of a scalar: the blanks, the line breaks, and the place behind them. -/
structure Gap where
  blanks : List Char := []
  breaks : List Char := []
  next : Place

/-- Passes blanks and line breaks. No tab may stand left of the column `least` in a new line. -/
def passGap? (least : Nat) (g : Gap) : List Char → Option Gap
  | [] => some { g with next := { g.next with rest := [] } }
  | c :: cs =>
    if isBreak c then
      passGap? least ⟨g.blanks, g.breaks ++ [c], ⟨g.next.line + 1, 0, cs⟩⟩ cs
    else if isBlank c then
      if c = '\t' ∧ g.breaks ≠ [] ∧ g.next.column < least then none
      else passGap? least ⟨g.blanks ++ [c], g.breaks, ⟨g.next.line, g.next.column + 1, cs⟩⟩ cs
    else some { g with next := { g.next with rest := c :: cs } }

/-- The gap at a place. -/
def gap? (least : Nat) (p : Place) : Option Gap :=
  passGap? least ⟨[], [], p⟩ p.rest

/-- Line breaks inside a scalar: a line feed alone is a blank, and the first of several is left
out. -/
def folded : List Char → List Char
  | ['\n'] => [' ']
  | '\n' :: more => more
  | breaks => breaks

/-- The text that a gap adds to a scalar. -/
def Gap.text (g : Gap) : List Char :=
  if g.breaks.isEmpty then g.blanks else folded g.breaks

end Phrasebook.Yaml
