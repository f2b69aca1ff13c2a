import Phrasebook.Key

/-!
# Keys as places in a tree of files

`Location.ofKey?` maps a key to directories, a file and a path of properties inside the file.
`Location.filePath` joins directories and file the way Unix paths are joined.
-/

namespace Phrasebook

/-- Where a key is kept in a tree of files. -/
structure Location where
  directories : List String
  file : String
  property : List String
  source : String
  deriving DecidableEq, Repr

/-- Why a key has no place in a tree of files. -/
inductive LocationError where
  | empty (key : String)
  | emptySegment (key : String)
  deriving DecidableEq, Repr

namespace LocationError

def reason : LocationError → String
  | empty _ => "key is empty after normalization"
  | emptySegment _ => "key contains an empty segment"

def key : LocationError → String
  | empty key => key
  | emptySegment key => key

def message (e : LocationError) : String :=
  "Invalid translation key '" ++ e.key ++ "': " ++ e.reason

end LocationError

namespace Location

/-- The file of a key without any separator. -/
def commonFile : String := "common"

/-- The file of a key with points and no colon. -/
def globalFile : String := "global"

/-- Directories, file and property path for the parts before the last colon and the parts between
the points after it. A single part after a colon makes the last directory the file; with one colon
the first part is the file, with more the last part alone is the property. -/
def place (directories parts : List String) : List String × String × List String :=
  match directories, parts with
  | [], [p] => ([], commonFile, [p])
  | [], ps => ([], globalFile, ps)
  | d :: ds, [p] => ((d :: ds).dropLast, (d :: ds).getLastD "", [p])
  | [d], ps => ([d], ps.headD "", ps.drop 1)
  | ds, ps => (ds ++ (ps.dropLast).dropLast, ps.dropLast.getLastD "", [ps.getLastD ""])

/-- The place of a key; no part of it may be empty. -/
def ofKey? (key : String) : Except LocationError Location :=
  let cs := Key.canonical key.toList
  if cs.isEmpty then .error (.empty key) else
    let segments := (Text.pieces ':' cs).map String.ofList
    let directories := segments.dropLast
    let parts := (Text.pieces '.' (segments.getLastD "").toList).map String.ofList
    if (directories ++ parts).any (· == "") then .error (.emptySegment key)
    else
      let (directories, file, property) := place directories parts
      .ok ⟨directories, file, property, key⟩

/-- A segment that begins with a slash replaces the path; any other is added behind a slash, unless
the path is empty or ends in one. -/
def push (path segment : List Char) : List Char :=
  if segment.head? = some '/' then segment
  else if path = [] ∨ path.getLast? = some '/' then path ++ segment
  else path ++ '/' :: segment

/-- The path of the file, without an extension. -/
def filePath (l : Location) : String :=
  String.ofList ((l.directories ++ [l.file]).foldl (fun path s => push path s.toList) [])

/-- The property path with points between its parts. -/
def propertyText (l : Location) : String :=
  ".".intercalate l.property

end Location

end Phrasebook
