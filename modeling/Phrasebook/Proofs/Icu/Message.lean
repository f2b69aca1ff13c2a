import Phrasebook.Template.Icu

/-!
# Messages as trees

A message is a list of parts, and a pattern holds a message in each of its clauses. `Message.print`
writes a message as text. `Message.eval` is its meaning, by recursion on the tree: a pattern stands
for one of its clauses, and a hash for the number of the innermost numeric pattern around it.
-/

namespace Phrasebook.Icu

/-- A part of a message: a text, a placeholder, a number token, or a pattern with a message behind
each selector. A `slot` holds a text that was parked under an index; no written message has one. -/
inductive Part where
  | literal (cs : List Char)
  | placeholder (name : List Char)
  | token (name format : List Char)
  | slot (index : Nat) (text : List Char)
  | pattern (kind : Kind) (name : List Char) (arms : List (List Char × List Part))

abbrev Message := List Part

/-- Selectors with what they select. -/
abbrev Arms := List (List Char × Message)

/-- Whether the clauses of a pattern are about a number, which a hash stands for. -/
def Kind.isNumeric : Kind → Bool
  | plural => true
  | select => false
  | ordinal => true

mutual

/-- The text that a part is written as. -/
def Part.print : Part → List Char
  | .literal cs => cs
  | .placeholder name => '\x7b' :: name ++ ['\x7d']
  | .token name format => '\x7b' :: name ++ '|' :: format ++ ['\x7d']
  | .slot index _ => slot index
  | .pattern kind name arms =>
    '\x7b' :: name ++ ',' :: ' ' :: kind.keyword ++ ',' :: Arms.print arms ++ ['\x7d']

def Message.print : Message → List Char
  | [] => []
  | p :: ps => p.print ++ Message.print ps

def Arms.print : Arms → List Char
  | [] => []
  | (selector, body) :: rest =>
    ' ' :: selector ++ ' ' :: '\x7b' :: Message.print body ++ '\x7d' :: Arms.print rest

end

/-- The value under a name. -/
def Env.value? (env : Env) (name : List Char) : Option Value :=
  Dictionary.find? (String.ofList name) env.vars

/-- The text that a placeholder is filled with. -/
def Env.shown? (env : Env) (name : List Char) : Option (List Char) :=
  ((env.value? name).bind Value.display).map (showText env.escape)

mutual

/-- What a part stands for, when a hash in it stands for `hash`. A placeholder or a pattern whose
value is of no use stays as written. -/
def Part.eval (env : Env) (hash : List Char) : Part → List Char
  | .literal cs => fillHash hash cs
  | .placeholder name =>
    (((env.value? name).bind Value.display).map (showText env.escape)).getD
      ('\x7b' :: name ++ ['\x7d'])
  | .token name format => '\x7b' :: name ++ '|' :: format ++ ['\x7d']
  | .slot _ text => text
  | .pattern .select name arms =>
    match (env.value? name).bind Value.display with
    | some text =>
      let cs := Arms.eval env hash arms
      ((bodyOf text.toList cs).or (bodyOf Category.other.keyword.toList cs)).getD
        (showText env.escape text)
    | none => (Part.pattern .select name arms).print
  | .pattern kind name arms =>
    match (env.value? name).bind Value.number? with
    | some count =>
      let number := plainChars (Binary64.ofFloat count)
      (numberBody (kind.category env.locale count) count (Arms.eval env number arms)).getD number
    | none => (Part.pattern kind name arms).print

def Message.eval (env : Env) (hash : List Char) : Message → List Char
  | [] => []
  | p :: ps => p.eval env hash ++ Message.eval env hash ps

/-- The clauses with what their bodies stand for. -/
def Arms.eval (env : Env) (hash : List Char) : Arms → List Clause
  | [] => []
  | (selector, body) :: rest => ⟨selector, Message.eval env hash body⟩ :: Arms.eval env hash rest

end

/-- The text that a message stands for; a hash outside of numeric patterns stands for itself. -/
def Message.value (env : Env) (m : Message) : String :=
  String.ofList (m.eval env ['#'])

/-! ### Well-formed messages -/

/-- Whether the text can name a value. -/
def isName (cs : List Char) : Bool :=
  !cs.isEmpty && cs.all Text.isWord

/-- Whether the text can select a clause. -/
def isSelector (cs : List Char) : Bool :=
  !cs.isEmpty && cs.all fun c => !Text.isBlank c && c != '\x7b' && c != '\x7d' && c != '#'

/-- Whether the character can stand for itself at a place where hashes may stand if `hashes`, and
commas if not `nested`. -/
def isLiteral (nested hashes : Bool) (c : Char) : Bool :=
  c != '\x7b' && c != '\x7d' && c != slotOpen && (!nested || c != ',') && (hashes || c != '#')

/-- Whether the character can stand in the format of a number token. -/
def isFormatChar (c : Char) : Bool :=
  c != '\x7b' && c != '\x7d' && c != '#'

/-- The number of numeric patterns around the clauses of a pattern with `depth` around itself. -/
def Kind.depthBelow (kind : Kind) (depth : Nat) : Nat :=
  if kind.isNumeric then depth + 1 else depth

mutual

/-- Whether a part is well formed inside a clause if `nested`, below `depth` numeric patterns: text
has no braces, text in clauses no commas, and hashes stand below one numeric pattern at most. -/
def Part.wellFormed (nested : Bool) (depth : Nat) : Part → Bool
  | .literal cs => cs.all (isLiteral nested (depth ≤ 1))
  | .placeholder name => isName name
  | .token name format => isName name && format.all isFormatChar
  | .slot _ _ => false
  | .pattern kind name arms => isName name && Arms.wellFormed (kind.depthBelow depth) arms

def Message.wellFormed (nested : Bool) (depth : Nat) : Message → Bool
  | [] => true
  | p :: ps => p.wellFormed nested depth && Message.wellFormed nested depth ps

def Arms.wellFormed (depth : Nat) : Arms → Bool
  | [] => true
  | (selector, body) :: rest =>
    isSelector selector && Message.wellFormed true depth body && Arms.wellFormed depth rest

end

mutual

/-- A part and the parts in its clauses at every depth. -/
def Part.parts : Part → List Part
  | .pattern kind name arms => .pattern kind name arms :: Arms.parts arms
  | p => [p]

def Message.parts : Message → List Part
  | [] => []
  | p :: ps => p.parts ++ Message.parts ps

def Arms.parts : Arms → List Part
  | [] => []
  | (_, body) :: rest => Message.parts body ++ Arms.parts rest

end

/-- Whether a value is of use to a pattern of this kind: a numeric one needs a number, a select any
value but null. -/
def Env.serves (env : Env) (kind : Kind) (name : List Char) : Bool :=
  if kind.isNumeric then ((env.value? name).bind Value.number?).isSome
  else ((env.value? name).bind Value.display).isSome

/-- Whether the value of each pattern in the message is of use to it. -/
def Message.served (env : Env) (m : Message) : Bool :=
  m.parts.all fun
    | .pattern kind name _ => env.serves kind name
    | _ => true

/-- Whether no number token of the message has the character that opens a slot. -/
def Message.keepsSlots (m : Message) : Bool :=
  m.parts.all fun
    | .token _ format => !format.contains slotOpen
    | _ => true

/-- No value has a text with the character that opens a slot. -/
def Env.Plain (env : Env) : Prop :=
  ∀ name v text, Dictionary.find? name env.vars = some v → v.display = some text →
    slotOpen ∉ text.toList

end Phrasebook.Icu
