import Phrasebook.Plural.Ordinal
import Phrasebook.Template.Icu.Clause
import Phrasebook.Template.Mustache

/-!
# Patterns

A pattern names a value and offers clauses. `marker?` reads its head up to the first clause,
`choose` picks what stands in its place: the body of a clause, or for a select without a fitting
clause the value itself.
-/

namespace Phrasebook.Icu

/-- What the clauses of a pattern depend on. -/
inductive Kind where
  | plural
  | select
  | ordinal
  deriving DecidableEq, Repr

/-- The word that tells the kind of a pattern. -/
def Kind.keyword : Kind → List Char
  | plural => ['p', 'l', 'u', 'r', 'a', 'l']
  | select => ['s', 'e', 'l', 'e', 'c', 't']
  | ordinal => ['s', 'e', 'l', 'e', 'c', 't', 'o', 'r', 'd', 'i', 'n', 'a', 'l']

/-- What a message is rendered with. -/
structure Env where
  locale : String
  escape : Bool
  vars : Vars

/-- What stands in place of a pattern: a body that may hold patterns, or finished text. -/
inductive Replacement where
  | body (cs : List Char)
  | text (cs : List Char)
  deriving DecidableEq, Repr

/-- The name in a simple placeholder at the start of the text, and the length of the
placeholder. -/
def simple? : List Char → Option (List Char × Nat)
  | '\x7b' :: rest =>
    let name := rest.takeWhile Text.isWord
    match name, rest.drop name.length with
    | _ :: _, '\x7d' :: _ => some (name, name.length + 2)
    | _, _ => none
  | _ => none

/-- The name in the head of a pattern at the start of the text, and the text of the head. -/
def marker? (kind : Kind) : List Char → Option (List Char × List Char)
  | '\x7b' :: rest =>
    let name := rest.takeWhile Text.isWord
    match name, rest.drop name.length with
    | _ :: _, ',' :: rest =>
      let blanks := rest.takeWhile Text.isBlank
      let rest := rest.drop blanks.length
      if (kind.keyword ++ [',']).isPrefixOf rest then
        let more := (rest.drop (kind.keyword.length + 1)).takeWhile Text.isBlank
        some (name, '\x7b' :: name ++ ',' :: blanks ++ kind.keyword ++ ',' :: more)
      else none
    | _, _ => none
  | _ => none

/-- The first pattern head in a text: what is before it, the name, the head and what is after. -/
def findMarker (kind : Kind) :
    List Char → Option (List Char × List Char × List Char × List Char)
  | [] => none
  | c :: cs =>
    match marker? kind (c :: cs) with
    | some (name, head) => some ([], name, head, (c :: cs).drop head.length)
    | none =>
      (findMarker kind cs).map fun (before, name, head, after) => (c :: before, name, head, after)

/-- Whether a selector names exactly this count. -/
def namesCount (count : Float) : List Char → Bool
  | '=' :: cs =>
    match readFloat? cs with
    | some x => x == count
    | none => false
  | _ => false

/-- The clause for an exact count, else for the category, else for the rest. -/
def numberBody (category : Category) (count : Float) (cs : List Clause) : Option (List Char) :=
  ((bodyWhere (namesCount count) cs).or (bodyOf category.keyword.toList cs)).or
    (bodyOf Category.other.keyword.toList cs)

/-- The body with the number in place of each hash. -/
def fillHash (number body : List Char) : List Char :=
  body.flatMap fun c => if c = '#' then number else [c]

/-- The category that a kind of pattern asks for. -/
def Kind.category (kind : Kind) (locale : String) (count : Float) : Category :=
  match kind with
  | .ordinal => Plural.ordinal locale count
  | _ => Plural.cardinal locale count

/-- What stands in place of a pattern over this value with these options, if the value is of
use. -/
def choose (env : Env) (kind : Kind) (value : Option Value) (options : List Char) :
    Option Replacement :=
  let cs := clauses options
  match kind with
  | .select =>
    (value.bind Value.display).map fun text =>
      match (bodyOf text.toList cs).or (bodyOf Category.other.keyword.toList cs) with
      | some body => .body body
      | none => .text (showText env.escape text)
  | kind =>
    (value.bind Value.number?).map fun count =>
      let number := plainChars (Binary64.ofFloat count)
      match numberBody (kind.category env.locale count) count cs with
      | some body => .body (fillHash number body)
      | none => .body number

end Phrasebook.Icu
