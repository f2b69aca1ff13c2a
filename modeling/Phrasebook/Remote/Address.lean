import Phrasebook.Text.Split

/-!
# Addresses

An address names a document on a web server by scheme, server and path. `Address.resolve?` reads a
reference, either a whole address or a part that the base address completes.
-/

namespace Phrasebook

/-- Scheme, server and the parts of the path between slashes. -/
structure Address where
  scheme : List Char
  server : List Char
  path : List (List Char)
  deriving DecidableEq, Repr

namespace Address

/-- A scheme in front of a colon, in lower case, and what follows the colon. -/
def scheme? (cs : List Char) : Option (List Char × List Char) :=
  match Text.cutFirst ':' cs with
  | some (c :: scheme, rest) =>
    if c.isAlpha ∧ scheme.all fun d => d.isAlphanum || d = '+' || d = '-' || d = '.' then
      some ((c :: scheme).map Char.toLower, rest)
    else none
  | _ => none

/-- Walks along the parts of a path, the parts so far in reverse: a single point stays, two points
go back. A path that ends in points ends in a slash. -/
def walk : List (List Char) → List (List Char) → List (List Char)
  | done, [] => done.reverse
  | done, part :: rest =>
    let slash : List (List Char) := if rest.isEmpty then [[]] else []
    if part = ['.'] then walk (slash ++ done) rest
    else if part = ['.', '.'] then walk (slash ++ done.drop 1) rest
    else walk (part :: done) rest

/-- The path that `parts` lead to from the directory `base`. -/
def pathFrom (base parts : List (List Char)) : List (List Char) :=
  walk base.reverse parts

/-- The server in front of the path, and the path without its first slash. -/
def ofServer? (scheme rest : List Char) : Option Address :=
  match Text.pieces '/' rest with
  | [] => none
  | server :: parts =>
    if server.isEmpty then none
    else some ⟨scheme, server, if parts.isEmpty then [[]] else pathFrom [] parts⟩

/-- Reads a whole address. -/
def parse? (text : String) : Option Address :=
  match scheme? text.toList with
  | some (scheme, '/' :: '/' :: rest) => ofServer? scheme rest
  | _ => none

/-- Completes a reference: a path after a slash replaces the path, any other continues from its
directory, and an empty one changes nothing. -/
def join? (base : Address) (reference : String) : Option Address :=
  match reference.toList with
  | [] => some base
  | '/' :: '/' :: rest => ofServer? base.scheme rest
  | '/' :: rest => some { base with path := pathFrom [] (Text.pieces '/' rest) }
  | cs =>
    if (scheme? cs).isSome then parse? reference
    else some { base with path := pathFrom base.path.dropLast (Text.pieces '/' cs) }

/-- The address that a reference names, with or without a base. -/
def resolve? (base : Option Address) (reference : String) : Option Address :=
  match base with
  | some base => base.join? reference
  | none => parse? reference

/-- The path as it is asked for. -/
def pathText (a : Address) : String :=
  String.ofList ('/' :: Text.joinWith ['/'] a.path)

end Address

end Phrasebook
