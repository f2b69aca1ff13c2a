/-!
# Tables under construction

The lines of a TOML text fill a tree of tables one after the other. `assign` puts a value under a
dotted key, `openTable` starts the table of a header and `openItem` an item of a list of tables. No
key is ever given a second value, and no table is opened twice.
-/

namespace Phrasebook.Toml

/-- How a table came to be: by its own header, by a dotted key, or because a header names a table
inside it. -/
inductive Origin where
  | header
  | dotted
  | implied
  deriving DecidableEq, Repr

/-- A value, with `closed` for a table in braces; an open table; or a list of open tables with the
newest first. -/
inductive Node where
  | bool (b : Bool)
  | int (n : Int)
  | float (x : Float)
  | moment (text : String)
  | text (s : String)
  | list (items : List Node)
  | closed (entries : List (String × Node))
  | table (origin : Origin) (entries : List (String × Node))
  | tables (items : List (List (String × Node)))

abbrev Entries := List (String × Node)

/-- Puts a node under a key, in place of what was there. -/
def put (key : String) (n : Node) : Entries → Entries
  | [] => [(key, n)]
  | (k, m) :: rest => if k = key then (key, n) :: rest else (k, m) :: put key n rest

/-- Changes the table that the keys lead to, through the newest item of a list of tables. Tables
that are missing are made and count as `made`; a dotted key does not lead into a table that has a
header. -/
def descend (made : Origin) (change : Origin → Entries → Option Entries) :
    List String → Origin → Entries → Option Entries
  | [], origin, entries => change origin entries
  | key :: keys, _, entries =>
    match entries.lookup key with
    | none =>
      (descend made change keys made []).map fun t => put key (.table made t) entries
    | some (.table origin t) =>
      if made = .dotted ∧ origin = .header then none
      else (descend made change keys origin t).map fun t => put key (.table origin t) entries
    | some (.tables (t :: ts)) =>
      (descend made change keys .header t).map fun t => put key (.tables (t :: ts)) entries
    | some _ => none

/-- Adds an entry under a new key. -/
def addEntry (key : String) (n : Node) (entries : Entries) : Option Entries :=
  match entries.lookup key with
  | none => some (entries ++ [(key, n)])
  | some _ => none

/-- Puts a value under the dotted key `keys.key`. -/
def assign (keys : List String) (key : String) (n : Node) (entries : Entries) : Option Entries :=
  match keys with
  | [] => addEntry key n entries
  | keys => descend .dotted (fun origin t => if origin = .dotted then addEntry key n t else none)
      keys .header entries

/-- Starts the table of a header. If it was implied before, it moves behind the other entries. -/
def openTable (keys : List String) (key : String) (entries : Entries) : Option Entries :=
  descend .implied (fun _ t =>
    match t.lookup key with
    | none => some (t ++ [(key, .table .header [])])
    | some (.table .implied u) => some (t.filter (·.1 != key) ++ [(key, .table .header u)])
    | some _ => none) keys .header entries

/-- Starts a new item of a list of tables. -/
def openItem (keys : List String) (key : String) (entries : Entries) : Option Entries :=
  descend .implied (fun _ t =>
    match t.lookup key with
    | none => some (put key (.tables [[]]) t)
    | some (.tables ts) => some (put key (.tables ([] :: ts)) t)
    | some _ => none) keys .header entries

/-- Changes the table of the header with this path. -/
def within (path : List String) (change : Entries → Option Entries) (entries : Entries) :
    Option Entries :=
  descend .implied (fun _ t => change t) path .header entries

/-- What a line of a TOML text says. -/
inductive Statement where
  | assign (keys : List String) (key : String) (n : Node)
  | table (keys : List String) (key : String)
  | item (keys : List String) (key : String)

/-- The tree so far and the header under which the next line stands. -/
structure Build where
  path : List String := []
  entries : Entries := []

/-- Carries out one line. -/
def Build.add (b : Build) : Statement → Option Build
  | .assign keys key n =>
    (within b.path (Toml.assign keys key n) b.entries).map fun entries => { b with entries }
  | .table keys key => (openTable keys key b.entries).map fun entries => ⟨keys ++ [key], entries⟩
  | .item keys key => (openItem keys key b.entries).map fun entries => ⟨keys ++ [key], entries⟩

/-- The entries that the lines build. -/
def ofStatements (lines : List Statement) : Option Entries :=
  (lines.foldlM Build.add {}).map (·.entries)

mutual

/-- The node with the tables of dotted keys closed. -/
def close : Node → Node
  | .table _ entries => .closed (closeEntries entries)
  | n => n

def closeEntries : List (String × Node) → List (String × Node)
  | [] => []
  | (k, n) :: rest => (k, close n) :: closeEntries rest

end

/-- Whether the node is a list or a table without anything in it. -/
def Node.isEmpty : Node → Bool
  | .list items => items.isEmpty
  | .closed entries => entries.isEmpty
  | .table _ entries => entries.isEmpty
  | .tables items => items.isEmpty
  | _ => false

end Phrasebook.Toml
