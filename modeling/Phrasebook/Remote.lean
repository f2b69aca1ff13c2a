import Phrasebook.Document.Json
import Phrasebook.Plugin
import Phrasebook.Remote.Address

/-!
# Catalogs from a web server

A remote source fetches the catalog of a namespace as a JSON document. Its path comes from a
manifest, if that lists the namespace, and otherwise from a pattern. The manifest is fetched once;
without a usable one every path comes from the pattern.
-/

namespace Phrasebook.Remote

/-- Where the catalogs are. `timeout` is in seconds. -/
structure Config where
  loadPath : String := "/locales/\x7b\x7blng\x7d\x7d/\x7b\x7bns\x7d\x7d.json"
  base : Option Address := none
  manifestPath : Option String := none
  timeout : Nat := 10

/-- What a server answers. -/
structure Response where
  status : Nat
  body : String

/-- How documents are fetched; there is no response from a server that cannot be reached. -/
abbrev Fetch := Address → Option Response

/-- A remote source, with its manifest once fetched and what it asked for so far. -/
structure Source where
  config : Config
  manifest : Option (Dictionary String) := none
  requests : List Address := []

def info : PluginInfo where
  name := "http-backend"
  kind := .backend
  description := some "Loads translation namespaces over HTTP"

/-- The configuration as options of a plugin. -/
def options (c : Config) : Vars :=
  Dictionary.ofList <|
    ("loadPath", .str c.loadPath) :: (c.manifestPath.map fun p => ("manifestPath", .str p)).toList

/-- The source as a plugin. -/
def plugin (c : Config) : Plugin :=
  ⟨info, { options := options c }, "", fun _ _ => .finish .nothing⟩

/-- The part of a pattern that stands for the locale. -/
def localeMark : String := "\x7b\x7blng\x7d\x7d"

/-- The part of a pattern that stands for the namespace. -/
def spaceMark : String := "\x7b\x7bns\x7d\x7d"

/-- The path by the pattern: first the locale is filled in, then the namespace. -/
def Config.pathByPattern (c : Config) (locale space : String) : String :=
  Text.replaceAll spaceMark space (Text.replaceAll localeMark locale c.loadPath)

/-- The paths by namespace that a manifest lists. -/
def manifestOf? (body : String) : Option (Dictionary String) :=
  match (Document.ofJson? body).bind Document.toValue with
  | some (.object fields) => fields.mapM fun (k, v) => v.text?.map fun path => (k, path)
  | _ => none

/-- The catalog in a document. -/
def catalogOf? (body : String) : Option Catalog :=
  ((Document.ofJson? body).bind Document.toValue).bind Catalog.ofValue?

namespace Source

/-- Asks a server for a document. -/
def get (fetch : Fetch) (path : String) (s : Source) : Option Response × Source :=
  match Address.resolve? s.config.base path with
  | some a => (fetch a, { s with requests := s.requests ++ [a] })
  | none => (none, s)

/-- The manifest, fetched unless it has been before. -/
def loadManifest (fetch : Fetch) (s : Source) : Dictionary String × Source :=
  match s.manifest, s.config.manifestPath with
  | some m, _ => (m, s)
  | none, none => ([], { s with manifest := some [] })
  | none, some path =>
    let (response, s) := s.get fetch path
    let m := match response with
      | some r => if r.status < 400 then (manifestOf? r.body).getD [] else []
      | none => []
    (m, { s with manifest := some m })

/-- The path of a namespace. -/
def pathFor (fetch : Fetch) (locale space : String) (s : Source) : String × Source :=
  let (m, s) := s.loadManifest fetch
  ((Dictionary.find? (locale ++ "/" ++ space) m).getD (s.config.pathByPattern locale space), s)

/-- The catalog of a namespace, if the server has a usable one. -/
def load (fetch : Fetch) (locale space : String) (s : Source) : Option Catalog × Source :=
  let (path, s) := s.pathFor fetch locale space
  let (response, s) := s.get fetch path
  match response with
  | some r => (if 200 ≤ r.status ∧ r.status < 300 then catalogOf? r.body else none, s)
  | none => (none, s)

end Source

end Phrasebook.Remote
