import Compliance.Cli.Flag
import Compliance.Files.Path
import Compliance.Json.Basic

/-!
# Commands

What the words of a command line ask for.
-/

namespace Compliance.Cli

/-- Settings that lie over those of the files. -/
structure Overrides where
  hostConfig : Option String
  abi : Option String
  timeoutMs : Option Nat
  includes : List String
  excludes : List String
  deriving DecidableEq

namespace Overrides

def ofGiven (g : Given) : Overrides :=
  ⟨g.value? "host-config", g.value? "abi",
    (g.value? "timeout-ms").bind number?, g.values "include",
    g.values "exclude"⟩

/-- The settings that were given. -/
def settings (o : Overrides) : List (String × Json) :=
  let list (name : String) (texts : List String) :=
    if texts.isEmpty then [] else [(name, Json.ofStrings texts)]
  Json.member? "abi" (o.abi.map .string) ++ list "exclude" o.excludes ++
    list "include" o.includes ++
    Json.member? "timeout_ms" (o.timeoutMs.map Json.ofNat)

/-- The layer of the overrides; there is none when nothing was given. -/
def layer? (o : Overrides) : Option Json :=
  match o.settings with
  | [] => none
  | members => some (.object [("suite", .object members)])

/-- The host file asked for, else the one in the home directory. -/
def hostPath? (o : Overrides) (home : Option String) : Option String :=
  o.hostConfig.or (home.map fun h => Files.join h ".config/cts-harness/config.toml")

end Overrides

structure RunCommand where
  suite : String
  device : String
  overrides : Overrides
  out : String
  json : Bool
  deriving DecidableEq

structure FlushCommand where
  out : String
  reportDir : Option String
  json : Bool
  deriving DecidableEq

structure ListCommand where
  suite : String
  device : Option String
  overrides : Overrides
  json : Bool
  deriving DecidableEq

structure ConfigCommand where
  suite : Option String
  overrides : Overrides
  deriving DecidableEq

inductive Command where
  | run (c : RunCommand)
  | flush (c : FlushCommand)
  | list (c : ListCommand)
  | config (c : ConfigCommand)
  deriving DecidableEq

inductive CommandName where
  | run
  | flush
  | list
  | config
  deriving DecidableEq

namespace CommandName

def wire : CommandName → String
  | run => "run"
  | flush => "flush"
  | list => "list"
  | config => "config"

def all : List CommandName :=
  [run, flush, list, config]

def ofText? (text : String) : Option CommandName :=
  all.find? fun n => n.wire == text

def about : CommandName → String
  | run => "Run a suite against a simulated device"
  | flush => "Retry delivery of reports left by a failed flush"
  | list => "List the tests a suite would run"
  | config => "Print the effective configuration"

end CommandName

/-! ## The flags of each command -/

def defaultOut : String := "cts-out"

def verboseFlag : Flag :=
  ⟨some 'v', "verbose", .switch, "Debug logging (overridden by RUST_LOG)", none⟩

def helpFlag : Flag :=
  ⟨some 'h', "help", .help, "Print help", none⟩

def versionFlag : Flag :=
  ⟨some 'V', "version", .version, "Print version", none⟩

def suiteFlag (about : String) : Flag :=
  ⟨some 's', "suite", .path, about, none⟩

def deviceFlag (about : String) : Flag :=
  ⟨some 'd', "device", .path, about, none⟩

def outFlag (about : String) : Flag :=
  ⟨some 'o', "out", .path, about, some defaultOut⟩

def jsonFlag (about : String) : Flag :=
  ⟨none, "json", .switch, about, none⟩

def reportDirFlag : Flag :=
  ⟨none, "report-dir", .text, "Collector directory under the output directory " ++
    "(defaults to the run's report.dir)", none⟩

def overrideFlags : List Flag :=
  [⟨none, "host-config", .path,
      "Host config (default: ~/.config/cts-harness/config.toml)", none⟩,
    ⟨none, "abi", .text, "ABI to report metrics under", none⟩,
    ⟨none, "timeout-ms", .number, "Per-test timeout in milliseconds", none⟩,
    ⟨none, "include", .texts, "Only run tests matching these globs", none⟩,
    ⟨none, "exclude", .texts, "Skip tests matching these globs", none⟩]

def programFlags : List Flag :=
  [verboseFlag, helpFlag, versionFlag]

namespace CommandName

/-- The flags in the order the help lists them. -/
def flags : CommandName → List Flag
  | run =>
      [suiteFlag "Suite file", verboseFlag,
        deviceFlag "Device file (profile plus scripted responses)"] ++
        overrideFlags ++ [outFlag "Output directory",
          jsonFlag "Print the suite summary as JSON", helpFlag]
  | flush =>
      [outFlag "Output directory of the earlier run", verboseFlag,
        reportDirFlag, jsonFlag "Output in JSON format", helpFlag]
  | list =>
      [suiteFlag "", verboseFlag,
        deviceFlag "Device file; adds a runnable column"] ++
        overrideFlags ++ [jsonFlag "Output in JSON format", helpFlag]
  | config => [suiteFlag "", verboseFlag] ++ overrideFlags ++ [helpFlag]

/-- The flags that must be given. -/
def required : CommandName → List String
  | run => ["suite", "device"]
  | flush => []
  | list => ["suite"]
  | config => []

end CommandName

/-- The command with the given flags, if the required ones are among them. -/
def Command.ofGiven? (g : Given) : CommandName → Option Command
  | .run => do
      return .run ⟨← g.value? "suite", ← g.value? "device", .ofGiven g,
        (g.value? "out").getD defaultOut, g.has "json"⟩
  | .flush =>
      some (.flush ⟨(g.value? "out").getD defaultOut, g.value? "report-dir",
        g.has "json"⟩)
  | .list => do
      return .list ⟨← g.value? "suite", g.value? "device", .ofGiven g,
        g.has "json"⟩
  | .config => some (.config ⟨g.value? "suite", .ofGiven g⟩)

/-- What help can be about. -/
inductive Topic where
  | program
  | command (n : CommandName)
  | help
  deriving DecidableEq

inductive Invocation where
  | command (c : Command)
  | help (t : Topic)
  | version
  | misuse
  deriving DecidableEq

namespace Invocation

def ofInterruption (t : Topic) : Interruption → Invocation
  | .help => help t
  | .version => version
  | .misuse => misuse

/-- The words behind the name of a command. -/
def ofCommandWords (n : CommandName) (words : List String) : Invocation :=
  match readFlags n.flags ⟨[], none⟩ words with
  | .error i => ofInterruption (.command n) i
  | .ok (g, []) =>
      match Command.ofGiven? g n with
      | some c => command c
      | none => misuse
  | .ok (_, _ :: _) => misuse

/-- The words behind `help`. -/
def ofHelpWords : List String → Invocation
  | [] => help .program
  | [word] =>
      if word = "help" then help .help
      else
        match CommandName.ofText? word with
        | some n => help (.command n)
        | none => misuse
  | _ => misuse

def ofWords (words : List String) : Invocation :=
  match readFlags programFlags ⟨[], none⟩ words with
  | .error i => ofInterruption .program i
  | .ok (_, []) => misuse
  | .ok (_, word :: rest) =>
      if word = "help" then ofHelpWords rest
      else
        match CommandName.ofText? word with
        | some n => ofCommandWords n rest
        | none => misuse

end Invocation

end Compliance.Cli
