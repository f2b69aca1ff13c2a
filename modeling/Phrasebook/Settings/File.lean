import Phrasebook.Document.Json
import Phrasebook.Document.Toml
import Phrasebook.Settings.Formats
import Phrasebook.Settings.Overrides
import Phrasebook.Settings.Validation

/-!
# Settings files

A settings file is written in the format that its extension names. `Settings.load` reads its bytes,
lets the environment override what it says, and accepts valid settings only.
-/

namespace Phrasebook

/-- The formats of settings files. -/
inductive FileFormat where
  | toml
  | yaml
  | json
  deriving DecidableEq, Repr

namespace FileFormat

def word : FileFormat → String
  | toml => "toml"
  | yaml => "yaml"
  | json => "json"

/-- The extensions of a format, in lower case. -/
def extensions : FileFormat → List String
  | toml => ["toml"]
  | yaml => ["yaml", "yml"]
  | json => ["json"]

/-- Every format. -/
def all : List FileFormat :=
  [toml, yaml, json]

/-- The format of this name. -/
def ofWord? (w : String) : Option FileFormat :=
  all.find? (·.word == w)

/-- The name at the end of a path. Repeated slashes and single points add nothing to a path, and two
points are no name. -/
def fileName? (path : String) : Option (List Char) :=
  let parts := (Text.pieces '/' path.toList).filter fun part => part != [] && part != ['.']
  parts.getLast?.filter (· != ['.', '.'])

/-- What stands behind the last point of a name, unless that point begins the name. -/
def extension? (name : List Char) : Option (List Char) :=
  match Text.cutLast '.' name with
  | some (_ :: _, extension) => some extension
  | _ => none

/-- The format that a path names by its extension, in any letter case. -/
def ofPath (path : String) : Except SettingsError FileFormat :=
  let extension := ((fileName? path).bind extension?).map fun cs => Text.lower (String.ofList cs)
  match extension.bind fun e => all.find? (·.extensions.contains e) with
  | some format => .ok format
  | none => .error (.unknownExtension path)

end FileFormat

/-- Why a settings file gives no settings. -/
inductive FileError where
  | settings (cause : SettingsError)
  | missing
  | notUtf8
  | malformed
  deriving DecidableEq, Repr

/-- The text of an error; a malformed file has none of its own. -/
def FileError.message? : FileError → Option String
  | settings cause => some cause.message
  | missing => some "I/O error: No such file or directory (os error 2)"
  | notUtf8 => some "I/O error: stream did not contain valid UTF-8"
  | malformed => none

namespace Settings

/-- The settings that a text says. -/
def parse? (format : FileFormat) (text : String) : Option Settings :=
  match format with
  | .toml => (Toml.ofText? text).bind (decode? Toml.reading)
  | .yaml => (Yaml.ofText? text).bind fun d => decode? (Yaml.reading d) (d.root.getD Yaml.absent)
  | .json => (Document.ofJson? text).bind (decode? Document.reading)

/-- The text of a file that may be missing. -/
def textOf : Option ByteArray → Except FileError String
  | none => .error .missing
  | some bytes =>
    match String.fromUTF8? bytes with
    | some text => .ok text
    | none => .error .notUtf8

/-- The settings of the file at a path with these contents, where `lookup` reads the environment. -/
def load (path : String) (contents : Option ByteArray) (lookup : String → Option String) :
    Except FileError Settings := do
  let format ← (FileFormat.ofPath path).mapError .settings
  let text ← textOf contents
  match parse? format text with
  | none => throw .malformed
  | some s =>
    let s := s.override lookup
    (s.validate).mapError .settings
    pure s

end Settings

end Phrasebook
