import Compliance.Json.Printer
import Compliance.Report.Batch

/-!
# Suite states

A suite goes through its states one by one and has no state for failure.  Every
change of the record gets the next sequence number.
-/

namespace Compliance.Run

open Compliance.Time (Timestamp)

inductive Stage where
  | idle
  | preparing
  | running
  | reporting
  | done
  deriving DecidableEq

namespace Stage

def wire : Stage → String
  | idle => "IDLE"
  | preparing => "PREPARING"
  | running => "RUNNING"
  | reporting => "REPORTING"
  | done => "DONE"

def cases : List (String × Stage) :=
  [idle, preparing, running, reporting, done].map fun s => (s.wire, s)

def describe : Stage → String
  | idle => "Idle"
  | preparing => "Preparing"
  | running => "Running"
  | reporting => "Reporting"
  | done => "Done"

def next? : Stage → Option Stage
  | idle => some preparing
  | preparing => some running
  | running => some reporting
  | reporting => some done
  | done => none

def canGoTo (s target : Stage) : Bool :=
  s.next? == some target

def isTerminal (s : Stage) : Bool :=
  s == done

end Stage

/-- What is being called of a test. -/
inductive Phase where
  | prepare
  | execute
  | cleanup
  deriving DecidableEq

def Phase.wire : Phase → String
  | prepare => "prepare"
  | execute => "execute"
  | cleanup => "cleanup"

def Phase.cases : List (String × Phase) :=
  [.prepare, .execute, .cleanup].map fun p => (p.wire, p)

structure CurrentTest where
  index : Nat
  testId : String
  phase : Phase
  deriving DecidableEq

structure State where
  schemaVersion : Nat
  schemaId : String
  suiteId : String
  stage : Stage
  createdAt : Timestamp
  updatedAt : Timestamp
  current : Option CurrentTest
  completed : Nat
  total : Nat
  seq : Nat
  deriving DecidableEq

inductive StateError where
  | invalidTransition (source target : Stage)
  deriving DecidableEq

def StateError.message : StateError → String
  | invalidTransition source target =>
      "Invalid state transition from " ++ source.describe ++ " to " ++
        target.describe

namespace State

/-- A suite that has not started, with its first sequence number. -/
def start (suiteId : String) (total seq : Nat) (now : Timestamp) : State :=
  ⟨1, "cts-harness/suite_state@1", suiteId, .idle, now, now, none, 0, total, seq⟩

def touch (s : State) (now : Timestamp) : State :=
  { s with updatedAt := now, seq := s.seq + 1 }

def goTo (s : State) (target : Stage) (now : Timestamp) :
    Except StateError State :=
  if s.stage.canGoTo target then
    .ok ({ s with stage := target, current := none }.touch now)
  else .error (.invalidTransition s.stage target)

def enter (s : State) (c : CurrentTest) (now : Timestamp) : State :=
  { s with current := some c }.touch now

/-- One more test has its result. -/
def complete (s : State) (now : Timestamp) : State :=
  { s with completed := s.completed + 1, current := none }.touch now

def CurrentTest.toJson (c : CurrentTest) : Json :=
  .object [("index", Json.ofNat c.index), ("test_id", .string c.testId),
    ("phase", .string c.phase.wire)]

def CurrentTest.ofJson? (v : Json) : Option CurrentTest := do
  let f ← v.fields? .json ["index", "test_id", "phase"] false
  return {
    index := ← f.required "index" (Json.unsigned? 64)
    testId := ← f.required "test_id" Json.asString?
    phase := ← f.required "phase" (Json.choice? .json Phase.cases) }

def toJson (s : State) : Json :=
  .object ([("schema_version", Json.ofNat s.schemaVersion),
    ("schema_id", .string s.schemaId), ("suite_id", .string s.suiteId),
    ("state", .string s.stage.wire),
    ("created_at", .string s.createdAt.render),
    ("updated_at", .string s.updatedAt.render)] ++
    Json.member? "current_test" (s.current.map CurrentTest.toJson) ++
    [("completed", Json.ofNat s.completed), ("total", Json.ofNat s.total),
      ("seq", Json.ofNat s.seq)])

def fieldNames : List String :=
  ["schema_version", "schema_id", "suite_id", "state", "created_at", "updated_at",
    "current_test", "completed", "total", "seq"]

def ofJson? (v : Json) : Option State := do
  let f ← v.fields? .json fieldNames false
  return {
    schemaVersion := ← f.required "schema_version" (Json.unsigned? 32)
    schemaId := ← f.required "schema_id" Json.asString?
    suiteId := ← f.required "suite_id" Json.asString?
    stage := ← f.required "state" (Json.choice? .json Stage.cases)
    createdAt := ← f.required "created_at" Report.Log.timeOfJson?
    updatedAt := ← f.required "updated_at" Report.Log.timeOfJson?
    current := ← f.optional "current_test" CurrentTest.ofJson?
    completed := ← f.required "completed" (Json.unsigned? 64)
    total := ← f.required "total" (Json.unsigned? 64)
    seq := ← f.required "seq" (Json.unsigned? 64) }

def toText (s : State) : String :=
  s.toJson.print .pretty

def ofText? (text : String) : Option State :=
  (Json.ofText? text).bind ofJson?

/-- Replaces a state file. -/
def save (s : State) (t : Files.Tree) (path : String) :
    Files.Tree × Except Files.FileError Unit :=
  t.replaceText (Files.withExtension path "tmp") path s.toText

end State

end Compliance.Run
