import Phrasebook.Text.CaseTables
import Phrasebook.Text.Word

/-!
# Upper and lower case

Full case mappings that do not depend on a locale. One character may become several, and a capital
sigma becomes a final sigma at the end of a word.
-/

namespace Phrasebook.Text

/-- Where the run sends `n`, if `n` is one of its code points. -/
def CaseRun.image? (r : CaseRun) (n : Nat) : Option Nat :=
  if r.first ≤ n ∧ n ≤ r.last ∧ (n - r.first) % r.step = 0 then some (n + r.shift).toNat else none

/-- The mapping of one character by a table of runs and a table of expansions. -/
def mapCase (runs : List CaseRun) (expansions : List (Nat × List Nat)) (c : Char) : List Char :=
  match expansions.lookup c.toNat with
  | some ns => ns.map Char.ofNat
  | none =>
    match runs.findSome? (·.image? c.toNat) with
    | some n => [Char.ofNat n]
    | none => [c]

/-- The upper case of one character. -/
def upperChar (c : Char) : List Char :=
  if c.toNat < 128 then [c.toUpper] else mapCase upperRuns upperExpansions c

/-- The lower case of one character, whatever its neighbours. -/
def lowerChar (c : Char) : List Char :=
  if c.toNat < 128 then [c.toLower] else mapCase lowerRuns lowerExpansions c

/-- Whether a letter with case follows, with nothing but case-ignorable characters before it. -/
def casedFollows (cs : List Char) : Bool :=
  match cs.dropWhile fun c => inRanges caseIgnorableRanges c.toNat with
  | [] => false
  | c :: _ => inRanges casedRanges c.toNat

/-- Lower case of the text, where `before` holds the characters to its left, nearest first. -/
def lowerAfter (before : List Char) : List Char → List Char
  | [] => []
  | c :: cs =>
    (if c = 'Σ' then [if casedFollows before && !casedFollows cs then 'ς' else 'σ']
      else lowerChar c) ++ lowerAfter (c :: before) cs

def upperText (cs : List Char) : List Char :=
  cs.flatMap upperChar

def lowerText (cs : List Char) : List Char :=
  lowerAfter [] cs

/-- Every character in upper case. -/
def upper (s : String) : String :=
  String.ofList (upperText s.toList)

/-- Every character in lower case. -/
def lower (s : String) : String :=
  String.ofList (lowerText s.toList)

/-- ASCII letters in lower case, all else unchanged. -/
def asciiLower (s : String) : String :=
  String.ofList (s.toList.map Char.toLower)

end Phrasebook.Text
