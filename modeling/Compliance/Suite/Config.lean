import Compliance.Files.Tree
import Compliance.Glob.Parser
import Compliance.Suite.Entry

/-!
# Suite configuration

The settings of a suite and its entries, checked, and the entries that its
patterns select.
-/

namespace Compliance.Suite

open Compliance.Check (TimeoutError Timeouts)
open Compliance.Glob (GlobError Pattern)
open Compliance.Report (TestId)

structure Settings where
  name : String
  /-- The ABI reports are filed under; the device's own if there is none. -/
  abi : Option String
  timeoutMs : Nat
  pollIntervalMs : Nat
  /-- Patterns of ids; none select everything. -/
  includes : List String
  /-- Patterns of ids that are left out in any case. -/
  excludes : List String
  deriving DecidableEq

structure Config where
  settings : Settings
  reportDir : String
  entries : List Entry

def defaultReportDir : String := "reports"

def Settings.default : Settings :=
  ⟨"cts", none, 30000, 50, [], []⟩

inductive ConfigError where
  | file (path : String) (e : Files.FileError)
  | notText (path : String)
  | notToml (path : String)
  | notAConfig
  | blankAbi
  | timeouts (e : TimeoutError)
  | duplicateId (id : TestId)
  | badPattern (pattern : String) (e : GlobError)
  | badPatterns (detail : String)
  deriving DecidableEq

inductive ConfigErrorKind where
  | io
  | parse
  | validation
  deriving DecidableEq

namespace ConfigError

def kind : ConfigError → ConfigErrorKind
  | file _ _ => .io
  | notText _ => .parse
  | notToml _ => .parse
  | notAConfig => .parse
  | _ => .validation

def detail : ConfigError → String
  | file path e => path ++ ": " ++ e.message
  | notText path => path ++ ": invalid UTF-8"
  | notToml path => path ++ ": not a TOML document"
  | notAConfig => "invalid suite config: not of its shape"
  | blankAbi => "suite.abi must not be empty"
  | timeouts e => "suite: " ++ e.message
  | duplicateId id => "duplicate test id '" ++ id.text ++ "'"
  | badPattern pattern e =>
      "invalid pattern '" ++ pattern ++ "': " ++ e.message
  | badPatterns detail => "invalid patterns: " ++ detail

def message (e : ConfigError) : String :=
  (match e.kind with
    | .io => "IO error: "
    | .parse => "Parse error: "
    | .validation => "Validation error: ") ++ e.detail

end ConfigError

namespace Settings

def ofJson? (v : Json) : Option Settings := do
  let f ← v.fields? .json
    ["name", "abi", "timeout_ms", "poll_interval_ms", "include", "exclude"]
    false
  return {
    name := ← f.defaulted "name" default.name Json.asString?
    abi := ← f.omittable "abi" Json.asString?
    timeoutMs := ← f.defaulted "timeout_ms" default.timeoutMs
      (Json.unsigned? 64)
    pollIntervalMs := ← f.defaulted "poll_interval_ms" default.pollIntervalMs
      (Json.unsigned? 64)
    includes := ← f.defaulted "include" [] (Json.listOf? Json.asString?)
    excludes := ← f.defaulted "exclude" [] (Json.listOf? Json.asString?) }

def toJson (s : Settings) : Json :=
  .object ([("name", .string s.name)] ++
    Json.member? "abi" (s.abi.map .string) ++
    [("timeout_ms", Json.ofNat s.timeoutMs),
      ("poll_interval_ms", Json.ofNat s.pollIntervalMs),
      ("include", Json.ofStrings s.includes),
      ("exclude", Json.ofStrings s.excludes)])

def timeouts (s : Settings) : Timeouts :=
  ⟨s.timeoutMs, s.pollIntervalMs⟩

end Settings

/-- What speaks against joining patterns into one set, as when it would grow too
large. -/
class SetLimit where
  exceeded : List Pattern → Option String

/-- Any patterns can be joined. -/
instance SetLimit.none : SetLimit :=
  ⟨fun _ => Option.none⟩

/-- The first pattern that is malformed, or all of them read. -/
def readPatterns : List String → Except ConfigError (List Pattern)
  | [] => .ok []
  | text :: rest =>
      match Pattern.ofText text with
      | .error e => .error (.badPattern text e)
      | .ok p =>
          match readPatterns rest with
          | .error e => .error e
          | .ok ps => .ok (p :: ps)

/-- The patterns, if they can be read and joined into one set. -/
def patternsOf [SetLimit] (texts : List String) : Except ConfigError (List Pattern) := do
  let ps ← readPatterns texts
  match SetLimit.exceeded ps with
  | some detail => throw (.badPatterns detail)
  | none => return ps

/-- Some pattern accepts the text. -/
def anyAccepts (ps : List Pattern) (text : String) : Bool :=
  ps.any (·.accepts text)

namespace Config

def reportDirOfJson? (v : Json) : Option String := do
  let f ← v.fields? .json ["dir"] false
  f.defaulted "dir" defaultReportDir Json.asString?

def ofJson? (v : Json) : Option Config := do
  let f ← v.fields? .json ["suite", "report", "tests"] false
  return {
    settings := ← f.defaulted "suite" .default Settings.ofJson?
    reportDir := ← f.defaulted "report" defaultReportDir reportDirOfJson?
    entries := ← f.defaulted "tests" [] (Json.listOf? Entry.ofJson?) }

def ofValue (v : Json) : Except ConfigError Config :=
  match ofJson? v with
  | none => .error .notAConfig
  | some c => .ok c

def toJson (c : Config) : Json :=
  .object [("suite", c.settings.toJson),
    ("report", .object [("dir", .string c.reportDir)]),
    ("tests", .array (c.entries.map Entry.toJson))]

/-- The first id that also stands earlier in a list. -/
def repeatedId? (seen : List TestId) : List Entry → Option TestId
  | [] => none
  | e :: rest =>
      if seen.contains e.id then some e.id else repeatedId? (e.id :: seen) rest

def checkAbi (c : Config) : Except ConfigError Unit :=
  match c.settings.abi with
  | some abi => if Text.allBlank abi then .error .blankAbi else .ok ()
  | none => .ok ()

def checkTimeouts (c : Config) : Except ConfigError Unit :=
  match c.settings.timeouts.validate with
  | .error e => .error (.timeouts e)
  | .ok () => .ok ()

def checkIds (c : Config) : Except ConfigError Unit :=
  match repeatedId? [] c.entries with
  | some id => .error (.duplicateId id)
  | none => .ok ()

/-- The first thing that is wrong with a configuration. -/
def validate [SetLimit] (c : Config) : Except ConfigError Unit := do
  c.checkAbi
  c.checkTimeouts
  c.checkIds
  let _ ← patternsOf c.settings.includes
  let _ ← patternsOf c.settings.excludes

/-- An id is selected when some include pattern accepts it, or there are none,
and no exclude pattern does. -/
def selects (includes excludes : List Pattern) (id : String) : Bool :=
  (includes.isEmpty || anyAccepts includes id) && !anyAccepts excludes id

/-- The selected entries, in suite order. -/
def selected [SetLimit] (c : Config) : Except ConfigError (List Entry) := do
  let includes ← patternsOf c.settings.includes
  let excludes ← patternsOf c.settings.excludes
  return c.entries.filter fun e => selects includes excludes e.id.text

end Config

end Compliance.Suite
