import Phrasebook.Document.Yaml.Token

/-!
# YAML documents

`Yaml.ofText?` reads a YAML text with at most one document: lists and tables by indentation or in
brackets, and scalars, which keep their style. Nodes may have tags and anchors, and an alias stands
for the node with its anchor.
-/

namespace Phrasebook.Yaml

/-- A node. `marked` is a node with an anchor, and `link` stands for the last node that is marked
with its number. -/
inductive Node where
  | scalar (tag : Option Tag) (style : Style) (text : String)
  | list (tag : Option Tag) (items : List Node)
  | table (tag : Option Tag) (entries : List (Node × Node))
  | marked (number : Nat) (node : Node)
  | link (number : Nat)
  deriving Inhabited

/-- The tokens left, the meaning of handles, and the numbers of anchors. -/
structure Source where
  tokens : List Token
  handles : List (List Char × Tag)
  numbers : List (List Char × Nat) := []

/-- Reads a part of a document. -/
abbrev Read := StateT Source Option

/-- The next token, which stays. -/
def peek : Read (Option Token) :=
  return (← get).tokens.head?

/-- Passes the next token. -/
def pass : Read Unit :=
  modify fun s => { s with tokens := s.tokens.tail }

/-- Passes the next token if it is this one. -/
def passIf (t : Token) : Read Bool := do
  if (← peek) = some t then
    pass
    return true
  else return false

/-- Passes the next token, which has to be this one. -/
def expect (t : Token) : Read Unit := do
  if !(← passIf t) then failure

/-- The number of an anchor: how many names have one so far. A name that is given again shares the
number with the next new one. -/
def number (name : List Char) : Read Nat := do
  let s ← get
  let n := s.numbers.length
  set { s with numbers := (name, n) :: s.numbers.filter (·.1 != name) }
  return n

/-- The number of the node that an alias stands for. -/
def numberOf (name : List Char) : Read Nat := do
  match (← get).numbers.lookup name with
  | some n => return n
  | none => failure

/-- The anchor here, if there is one. -/
def anchor? : Read (Option (List Char)) := do
  match ← peek with
  | some (.anchor name) =>
    pass
    return some name
  | _ => return none

/-- The tag here, if there is one. -/
def tag? : Read (Option Tag) := do
  match ← peek with
  | some (.tag t) =>
    pass
    match t.tag? (← get).handles with
    | some tag => return some tag
    | none => failure
  | _ => return none

/-- The anchor and the tag here, in either order. -/
def properties : Read (Option (List Char) × Option Tag) := do
  match ← anchor? with
  | some name => return (some name, ← tag?)
  | none =>
    match ← tag? with
    | some tag => return (← anchor?, some tag)
    | none => return (none, none)

/-- A scalar. The tag of an exclamation mark alone says nothing about it. -/
def scalarOf (tag : Option Tag) (style : Style) (text : List Char) : Node :=
  .scalar (if tag = some (Tag.ofText "!") then none else tag) style (String.ofList text)

/-- A node that is left out. -/
def absent : Node := .scalar none .plain ""

/-- Whether one of these tokens is next. -/
def isNext (ts : List Token) : Read Bool :=
  return (← peek).any (ts.contains ·)

mutual

/-- A node. Block collections are read only where `block` allows it, and a list without indentation
of its own only where `bare` does. -/
def node (block bare : Bool) : Nat → Read Node
  | 0 => failure
  | fuel + 1 => do
    if let some (.link name) := ← peek then
      pass
      return .link (← numberOf name)
    let (anchor, tag) ← properties
    let mark ← match anchor with
      | some name => pure (Node.marked (← number name))
      | none => pure id
    match ← peek with
    | some .dash =>
      if bare then return mark (.list tag (← bareItems fuel))
      else if anchor.isSome || tag.isSome then return mark (.scalar tag .plain "")
      else failure
    | some (.scalar style text) =>
      pass
      return mark (scalarOf tag style text)
    | some .openList =>
      pass
      return mark (.list tag (← items true fuel))
    | some .openTable =>
      pass
      return mark (.table tag (← entries true fuel))
    | some .blockList =>
      if block then
        pass
        return mark (.list tag (← blockItems fuel))
      else if anchor.isSome || tag.isSome then return mark (.scalar tag .plain "")
      else failure
    | some .blockTable =>
      if block then
        pass
        return mark (.table tag (← blockEntries fuel))
      else if anchor.isSome || tag.isSome then return mark (.scalar tag .plain "")
      else failure
    | _ =>
      if anchor.isSome || tag.isSome then return mark (.scalar tag .plain "") else failure

/-- A node, or an absent one before one of these tokens. -/
def nodeUnless (ends : List Token) (block bare : Bool) : Nat → Read Node
  | 0 => failure
  | fuel + 1 => do
    if ← isNext ends then return absent else node block bare fuel

/-- The items of a list by indentation. -/
def blockItems : Nat → Read (List Node)
  | 0 => failure
  | fuel + 1 => do
    if ← passIf .blockEnd then return []
    expect .dash
    let item ← nodeUnless [.dash, .blockEnd] true false fuel
    return item :: (← blockItems fuel)

/-- The items of a list whose dashes stand in the column of the keys around it. -/
def bareItems : Nat → Read (List Node)
  | 0 => failure
  | fuel + 1 => do
    if !(← passIf .dash) then return []
    let item ← nodeUnless [.dash, .key, .value, .blockEnd] true false fuel
    return item :: (← bareItems fuel)

/-- The entries of a table by indentation. -/
def blockEntries : Nat → Read (List (Node × Node))
  | 0 => failure
  | fuel + 1 => do
    if ← passIf .blockEnd then return []
    expect .key
    let ends := [Token.key, .value, .blockEnd]
    let key ← nodeUnless ends true true fuel
    let value ← if ← passIf .value then nodeUnless ends true true fuel else pure absent
    return (key, value) :: (← blockEntries fuel)

/-- The items of a list in brackets. An item with a key is a table with one entry. -/
def items (first : Bool) : Nat → Read (List Node)
  | 0 => failure
  | fuel + 1 => do
    if ← passIf .closeList then return []
    if !first then expect .comma
    if ← passIf .closeList then return []
    let item ← if ← passIf .key then entry fuel else node false false fuel
    return item :: (← items false fuel)

/-- The table with one entry whose key is read next. A key that is left out takes the token behind
it along. -/
def entry : Nat → Read Node
  | 0 => failure
  | fuel + 1 => do
    let key ← if ← isNext [.value, .comma, .closeList] then do pass; pure absent
      else node false false fuel
    let value ← if ← passIf .value then nodeUnless [.comma, .closeList] false false fuel
      else pure absent
    return .table none [(key, value)]

/-- The entries of a table in brackets. A key without a mark has no value. -/
def entries (first : Bool) : Nat → Read (List (Node × Node))
  | 0 => failure
  | fuel + 1 => do
    if ← passIf .closeTable then return []
    if !first then expect .comma
    if ← passIf .closeTable then return []
    let ends := [Token.comma, .closeTable]
    let pair ← if ← passIf .key then do
        let key ← nodeUnless (.value :: ends) false false fuel
        let value ← if ← passIf .value then nodeUnless ends false false fuel else pure absent
        pure (key, value)
      else pure (← node false false fuel, absent)
    return pair :: (← entries false fuel)

end

/-- The only document of the tokens, if they have one. Directives need a start marker behind
them. -/
def document (tokens : List Token) : Option (Option Node) := do
  if tokens.isEmpty then return none
  let directives := tokens.filterMap fun
    | .directive d => some d
    | _ => none
  let lead := tokens.takeWhile fun
    | .directive _ => true
    | _ => false
  if lead.length ≠ directives.length then none
  let handles ← handlesOf? directives
  let body := tokens.drop lead.length
  let fuel := 4 * tokens.length + 4
  let (root, s) ← match body with
    | .documentStart :: body =>
      let content := if body.isEmpty then pure absent
        else nodeUnless [.documentStart, .documentEnd] true false fuel
      content { tokens := body, handles }
    | body => if lead.isEmpty then node true false fuel { tokens := body, handles } else none
  if s.tokens.all (· = .documentEnd) then return some root else none

mutual

/-- The marked nodes with their numbers, in the order in which they begin. -/
def Node.marks : Node → List (Nat × Node)
  | .scalar .. => []
  | .list _ ns => marksOfItems ns
  | .table _ ns => marksOfEntries ns
  | .marked number n => (number, n) :: n.marks
  | .link _ => []

def marksOfItems : List Node → List (Nat × Node)
  | [] => []
  | n :: ns => n.marks ++ marksOfItems ns

def marksOfEntries : List (Node × Node) → List (Nat × Node)
  | [] => []
  | (k, v) :: ns => k.marks ++ v.marks ++ marksOfEntries ns

end

/-- A document: its root, unless the text has no content, and the nodes that aliases stand for. -/
structure Document where
  root : Option Node
  marks : List (Nat × Node)

/-- The node itself, where `n` has an anchor or is an alias. -/
def Document.target? (d : Document) : Node → Option Node
  | .marked _ n => some n
  | .link number => d.marks.lookup number
  | n => some n

/-- The document of a text. -/
def ofText? (text : String) : Option Document := do
  let root ← document (← tokens? text.toList)
  some ⟨root, ((root.map Node.marks).getD []).reverse⟩

end Phrasebook.Yaml
