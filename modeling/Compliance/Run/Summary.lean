import Compliance.Run.Delivery
import Compliance.Run.Result

/-!
# Suite summaries

The results of a suite in numbers, its status and exit code, and the delivery of
its reports.  What follows from results and delivery is computed again whenever
the delivery changes.
-/

namespace Compliance.Run

open Compliance.Time (Timestamp)

structure Summary where
  schemaVersion : Nat
  schemaId : String
  suiteId : String
  suiteName : String
  abi : String
  createdAt : Timestamp
  /-- The worst test status, raised to an error by a failed delivery. -/
  status : Status
  exitCode : Int
  testCount : Nat
  passed : Nat
  failed : Nat
  errored : Nat
  skipped : Nat
  cancelled : Bool
  durationMs : Nat
  results : List TestResult
  report : Delivery
  human : String
  deriving DecidableEq

namespace Summary

def countOf (s : Status) (rs : List TestResult) : Nat :=
  rs.countP fun r => r.status == s

def statusOf (rs : List TestResult) (transportFailed : Bool) : Status :=
  let worst := Status.worst (rs.map (·.status))
  if transportFailed then worst.worse .error else worst

def humanText (s : Summary) : String :=
  let number := Number.decimal
  (if s.testCount = 0 then "No tests selected"
    else s.status.wire ++ ": " ++ number s.passed ++ " passed, " ++
      number s.failed ++ " failed, " ++ number s.errored ++ " errored, " ++
      number s.skipped ++ " skipped of " ++ number s.testCount) ++
    (if s.cancelled then " (cancelled)" else "") ++
    (match s.report.error with
      | some e => "; report delivery failed: " ++ e
      | none => "")

/-- Everything that follows from results, cancellation and delivery. -/
def recompute (s : Summary) : Summary :=
  let transportFailed := s.report.error.isSome
  let status := statusOf s.results transportFailed
  let s := { s with
    testCount := s.results.length
    passed := countOf .pass s.results
    failed := countOf .fail s.results
    errored := countOf .error s.results
    skipped := countOf .skipped s.results
    status := status
    exitCode := (ExitCode.ofSuite status s.cancelled transportFailed).value }
  { s with human := s.humanText }

/-- The identity of a suite run. -/
structure Heading where
  suiteId : String
  suiteName : String
  abi : String

def ofResults (h : Heading) (results : List TestResult) (cancelled : Bool)
    (durationMs : Nat) (now : Timestamp) : Summary :=
  recompute ⟨1, "cts-harness/suite_summary@1", h.suiteId, h.suiteName, h.abi, now,
    .pass, 0, 0, 0, 0, 0, 0, cancelled, durationMs, results, .none, ""⟩

def withReport (s : Summary) (d : Delivery) : Summary :=
  recompute { s with report := d }

def exit? (s : Summary) : Option ExitCode :=
  ExitCode.ofValue? s.exitCode

def exit (s : Summary) : ExitCode :=
  s.exit?.getD .testError

def toJson (s : Summary) : Json :=
  .object [("schema_version", Json.ofNat s.schemaVersion),
    ("schema_id", .string s.schemaId), ("suite_id", .string s.suiteId),
    ("suite_name", .string s.suiteName), ("abi", .string s.abi),
    ("created_at", .string s.createdAt.render),
    ("status", .string s.status.wire), ("exit_code", .number (.whole s.exitCode)),
    ("test_count", Json.ofNat s.testCount), ("passed", Json.ofNat s.passed),
    ("failed", Json.ofNat s.failed), ("errored", Json.ofNat s.errored),
    ("skipped", Json.ofNat s.skipped), ("cancelled", .bool s.cancelled),
    ("duration_ms", Json.ofNat s.durationMs),
    ("results", .array (s.results.map TestResult.toJson)),
    ("report", s.report.toJson), ("human_summary", .string s.human)]

def fieldNames : List String :=
  ["schema_version", "schema_id", "suite_id", "suite_name", "abi", "created_at",
    "status", "exit_code", "test_count", "passed", "failed", "errored",
    "skipped", "cancelled", "duration_ms", "results", "report",
    "human_summary"]

def ofJson? (v : Json) : Option Summary := do
  let f ← v.fields? .json fieldNames false
  let count := Json.unsigned? 64
  return {
    schemaVersion := ← f.required "schema_version" (Json.unsigned? 32)
    schemaId := ← f.required "schema_id" Json.asString?
    suiteId := ← f.required "suite_id" Json.asString?
    suiteName := ← f.required "suite_name" Json.asString?
    abi := ← f.required "abi" Json.asString?
    createdAt := ← f.required "created_at" Report.Log.timeOfJson?
    status := ← f.required "status" (Json.choice? .json Status.cases)
    exitCode := ← f.required "exit_code"
      (Json.signed? 32)
    testCount := ← f.required "test_count" count
    passed := ← f.required "passed" count
    failed := ← f.required "failed" count
    errored := ← f.required "errored" count
    skipped := ← f.required "skipped" count
    cancelled := ← f.required "cancelled" Json.asBool?
    durationMs := ← f.required "duration_ms" count
    results := ← f.required "results" (Json.listOf? TestResult.ofJson?)
    report := ← f.required "report" Delivery.ofJson?
    human := ← f.required "human_summary" Json.asString? }

def toText (s : Summary) : String :=
  s.toJson.print .pretty

def ofText? (text : String) : Option Summary :=
  (Json.ofText? text).bind ofJson?

end Summary

end Compliance.Run
