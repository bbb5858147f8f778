import Compliance.Cli.Artifact
import Compliance.Cli.Selection
import Compliance.Run.Runner
import Compliance.Text.Columns

/-!
# Running a suite into a directory

The selected entries run against the simulated device.  Batches go to the
collector directory, and the artifacts tell what happened and which reports
still wait.
-/

namespace Compliance.Cli

open Compliance.Check (Bench CancelToken TestCase)
open Compliance.Device (Platform Script)
open Compliance.Files (Tree)
open Compliance.Report (Collector Outbox)
open Compliance.Run (Outlets Plan Summary SuiteRun TestResult)
open Compliance.Suite (Config SetLimit casesOf)

/-- The collector that a report directory below the output directory stands
for. -/
def collectorIn (out reportDir : String) : Collector Tree :=
  .toDirectory (Files.join out reportDir)

/-- Batches go to the report directory, states to their artifact. -/
def outletsIn (out reportDir : String) : Outlets Tree where
  collector := collectorIn out reportDir
  recordState state t := (state.save t (Artifact.path .state out)).1

/-- The plan of a configuration; reports are filed under the device's own ABI
unless another is configured. -/
def planOf (c : Config) (device : Script) : Plan :=
  ⟨c.settings.name, c.settings.abi.getD device.profile.abi, c.settings.timeouts⟩

/-- A device nobody has touched yet. -/
def benchOf (s : Setting) (device : Script) : Bench :=
  ⟨s.clock, .fresh, .ofScript device, none⟩

/-- Keeps unsent reports for a later flush; when there are none, what an earlier
run left there goes. -/
def keepPending (outbox : Outbox) (out : String) (t : Tree) : Tree :=
  if 0 < outbox.unsentCount then (outbox.save t (Artifact.path .pending out)).1
  else if t.exists? (Artifact.path .pending out) then
    Artifact.remove .pending out t
  else t

/-- The summary with the directory its reports went to. -/
def inDirectory (m : Summary) (reportDir : String) : Summary :=
  { m with report := { m.report with dir := some reportDir } }

def renderResult (r : TestResult) : String :=
  Text.padRight 8 r.status.wire ++ " " ++ Text.padRight 48 r.id.text ++ " " ++
    r.detail.getD "" ++ "\n"

def renderResults (m : Summary) : String :=
  String.join (m.results.map renderResult) ++ "\n" ++ m.human ++ "\n"

def renderSummary (json : Bool) (m : Summary) : String :=
  if json then m.toText ++ "\n" else renderResults m

namespace RunCommand

/-- What the suite and the device come to, or what is wrong with them. -/
def prepare [SetLimit] (c : RunCommand) (s : Setting) :
    Except String (Selection Script × List TestCase) := do
  let chosen ← select s c.suite c.overrides (loadDevice s c.device)
  let cases ← (casesOf chosen.entries).mapError entryComplaint
  return (chosen, cases)

/-- Runs the checks of a selection, starting from the given files. -/
def execute (c : RunCommand) (s : Setting) (chosen : Selection Script)
    (cases : List TestCase) (t : Tree) : SuiteRun Tree :=
  Run.runSuite (outletsIn c.out chosen.config.reportDir)
    (planOf chosen.config chosen.device) chosen.device.profile
    ⟨s.suiteId, s.batchId, 0⟩ cases (benchOf s chosen.device) t

/-- The files after a run: its artifacts beside its batches. -/
def settle (c : RunCommand) (chosen : Selection Script) (run : SuiteRun Tree) :
    Tree :=
  let effective := chosen.effective.withSuiteId run.summary.suiteId
  let summary := inDirectory run.summary chosen.config.reportDir
  Artifact.write .summary c.out summary.toText
    (keepPending run.progress.outbox c.out
      (Artifact.write .effectiveConfig c.out effective.toText run.progress.store))

def directoryComplaint (out : String) (e : Files.FileError) : String :=
  "Error creating " ++ out ++ ": " ++ e.message

def perform [SetLimit] (c : RunCommand) (s : Setting) : Reply :=
  match c.prepare s with
  | .error complaint => .refusal s complaint
  | .ok (chosen, cases) =>
      match s.tree.createDirectories c.out with
      | (t, .error e) =>
          .refusal { s with tree := t } (directoryComplaint c.out e)
      | (t, .ok ()) =>
          let run := c.execute s chosen cases t
          let summary := inDirectory run.summary chosen.config.reportDir
          ⟨run.summary.exit.value, renderSummary c.json summary, "",
            c.settle chosen run⟩

end RunCommand

end Compliance.Cli
