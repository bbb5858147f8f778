import Compliance.Digest.Sha256
import Compliance.Json.Printer
import Compliance.Suite.Config
import Compliance.Suite.Layers
import Compliance.Time.Timestamp
import Compliance.Toml.Reader

/-!
# Effective configuration

The layers of a run merged into one value: built-in defaults, the host file if
there is one, the suite file, overrides of the command line.  Each layer is
recorded with its path and the digest of its bytes.
-/

namespace Compliance.Suite

open Compliance.Files (Tree)
open Compliance.Time (Timestamp)

inductive Origin where
  | builtin
  | host
  | suite
  | commandLine
  deriving DecidableEq

def Origin.wire : Origin → String
  | builtin => "builtin"
  | host => "host"
  | suite => "suite"
  | commandLine => "cli"

structure Source where
  origin : Origin
  /-- The path and the digest of a file. -/
  file : Option (String × String)
  deriving DecidableEq

def Source.toJson (s : Source) : Json :=
  .object ([("origin", .string s.origin.wire)] ++
    Json.member? "path" (s.file.map fun f => .string f.1) ++
    Json.member? "digest" (s.file.map fun f => .string f.2))

/-- A layer and where it came from. -/
structure Layer where
  value : Json
  source : Source

structure Effective where
  createdAt : Timestamp
  suiteId : Option String
  config : Json
  sources : List Source

namespace Effective

def builtinLayer : Layer where
  value := .object [
    ("report", .object [("dir", .string defaultReportDir)]),
    ("suite", .object [("exclude", .array []), ("include", .array []),
      ("name", .string Settings.default.name),
      ("poll_interval_ms", Json.ofNat Settings.default.pollIntervalMs),
      ("timeout_ms", Json.ofNat Settings.default.timeoutMs)]),
    ("tests", .array [])]
  source := ⟨.builtin, none⟩

/-- A file read as a layer. -/
def readLayer (t : Tree) (origin : Origin) (path : String) :
    Except ConfigError Layer :=
  match t.read path with
  | .error e => .error (.file path e)
  | .ok content =>
      match String.fromUTF8? content with
      | none => .error (.notText path)
      | some text =>
          match Toml.layerOfText? text with
          | none => .error (.notToml path)
          | some v =>
              .ok ⟨v, ⟨origin, some (path, Digest.sha256 content.toList)⟩⟩

/-- A host file need not be there. -/
def hostLayers (t : Tree) : Option String → Except ConfigError (List Layer)
  | none => .ok []
  | some path =>
      if t.exists? path then (readLayer t .host path).map ([·]) else .ok []

def suiteLayers (t : Tree) : Option String → Except ConfigError (List Layer)
  | none => .ok []
  | some path => (readLayer t .suite path).map ([·])

def overrideLayers (overrides : Option Json) : List Layer :=
  overrides.toList.map fun v => ⟨v, ⟨.commandLine, none⟩⟩

/-- The typed view of the merged value, validated. -/
def suiteConfig [SetLimit] (e : Effective) : Except ConfigError Config := do
  let c ← Config.ofValue e.config
  c.validate
  return c

def ofLayers (layers : List Layer) (now : Timestamp) : Effective :=
  ⟨now, none, mergeLayers (layers.map (·.value)), layers.map (·.source)⟩

/-- Merges the layers of a run; a configuration that is not valid is refused. -/
def build [SetLimit] (t : Tree) (host suite : Option String) (overrides : Option Json)
    (now : Timestamp) : Except ConfigError Effective := do
  let e := ofLayers ([builtinLayer] ++ (← hostLayers t host) ++
    (← suiteLayers t suite) ++ overrideLayers overrides) now
  let _ ← e.suiteConfig
  return e

def withSuiteId (e : Effective) (id : String) : Effective :=
  { e with suiteId := some id }

/-- The value at a path of keys with dots between them. -/
def get? (e : Effective) (path : String) : Option Json :=
  e.config.at? (path.splitOn ".")

def toJson (e : Effective) : Json :=
  .object ([("schema_version", Json.ofNat 1),
    ("schema_id", .string "cts-harness/effective_config@1"),
    ("created_at", .string e.createdAt.render)] ++
    Json.member? "suite_id" (e.suiteId.map .string) ++
    [("config", e.config), ("sources", .array (e.sources.map Source.toJson))])

def toText (e : Effective) : String :=
  e.toJson.print .pretty

end Effective

end Compliance.Suite
