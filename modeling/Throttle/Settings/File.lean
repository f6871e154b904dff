import Throttle.Layer.Json
import Throttle.Layer.Toml
import Throttle.Layer.Yaml
import Throttle.Settings.Document
import Throttle.Settings.Layers
import Throttle.Storage

/-!
# Settings in files

A file holds settings either as a document of its own, or as a layer that the environment is laid over.
The format of a layer is told by the extension of its file, which may be left out when the file is
named.

## Main definitions

* `Settings.ofStored` — the settings in a document.
* `Format` — the formats of layers.
* `Settings.load` — the settings in a file and the environment, checked.
-/

namespace Throttle

/-- The settings in a file that is a document, whatever its name. -/
def Settings.ofStored (stored : Stored) : Except Fault Settings :=
  match stored.text with
  | .error fault => .error (.file fault)
  | .ok text => (ofYaml text).mapError fun fault => .settings (.document fault)

/-- A format of layers. -/
inductive Format where
  | toml
  | json
  | yaml
deriving Repr, DecidableEq

namespace Format

/-- The extensions of files, each with its format. -/
def extensions : List (String × Format) :=
  [("toml", toml), ("json", json), ("yaml", yaml), ("yml", yaml)]

/-- The format of a file's name. -/
def ofName? (name : String) : Option Format := do extensions.lookup (← FilePath.extension? name)

/-- The value in a text. -/
def read? (format : Format) (origin text : String) : Option Layer.Value :=
  match format with
  | toml => Layer.Value.ofToml? origin text
  | json => Layer.Value.ofJson? origin text
  | yaml => Layer.Value.ofYaml? origin text

end Format

namespace Storage

/-- The paths of files that a name without its extension may mean. -/
def completions (path : String) : List (String × Format) :=
  let parts := FilePath.parts path
  if parts.isEmpty ∨ parts.getLast? = some ".." then []
  else Format.extensions.map fun entry =>
    (FilePath.join (FilePath.isAbsolute path) parts ++ "." ++ entry.1, entry.2)

/-- Every path that is looked at for the file that a path means. -/
def candidates (path : String) : List String := path :: (completions path).map (·.1)

/-- The file that a path means, and its format. -/
def locate (storage : Storage) (path : String) : Except LayerFault (String × Format) :=
  if (storage.stored path).isFile then
    match ((FilePath.parts path).getLast?.bind Format.ofName?) with
    | some format => .ok (path, format)
    | none => .error (.unknownFormat (storage.absolute path))
  else
    match (completions path).find? fun entry => (storage.stored entry.1).isFile with
    | some entry => .ok entry
    | none => .error (.notFound path)

/-- The names in a file and what they stand for. -/
def readLayer (storage : Storage) (path : String) :
    Except LayerFault (List (String × Layer.Value)) := do
  let (file, format) ← storage.locate path
  let origin := storage.relative file
  let text ← (storage.stored file).text.mapError fun _ => LayerFault.notText
  match format.read? origin text with
  | none => .error .illFormed
  | some (.table entries _) => .ok entries
  | some value => .error (.notATable value.found origin)

end Storage

namespace Settings

/-- The settings in a file, if there is one, with the environment laid over it. They are checked. -/
def load (storage : Storage) (path : Option String) (environment : List (String × String)) :
    Except Fault Settings := do
  let settings ← Except.mapError (fun fault => Fault.settings (.layers fault)) do
    let file ← match path with
      | some path => storage.readLayer path
      | none => pure []
    ofSources [file, Layer.ofEnvironment environment]
  match settings.check with
  | .ok _ => pure settings
  | .error fault => .error (.ofCheck fault)

end Settings

end Throttle
