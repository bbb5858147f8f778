import Compliance.Check.Outcome
import Compliance.Json.Decode
import Compliance.Report.Log
import Compliance.Run.Status

/-!
# Test results

What is recorded of one test: its status, the cause and detail of a failure,
times, and the number of metrics in its report.
-/

namespace Compliance.Run

open Compliance.Check (Failure FailureCause Outcome SkipReason)
open Compliance.Report (TestId)
open Compliance.Time (Timestamp)

/-- The characters that XML 1.0 admits. -/
def isXmlChar (c : Char) : Bool :=
  c == '\t' || c == '\n' || c == '\r' || (' ' ≤ c && c ≤ '\uFFFD') ||
    0x10000 ≤ c.toNat

def sanitize (detail : String) : String :=
  String.ofList (detail.toList.filter isXmlChar)

structure TestResult where
  id : TestId
  status : Status
  cause : Option FailureCause
  detail : Option String
  startedAt : Timestamp
  durationMs : Nat
  /-- The number of metrics that went into the report. -/
  metrics : Nat
  deriving DecidableEq

/-- When a test started, and how long it took. -/
structure Span where
  startedAt : Timestamp
  durationMs : Nat

namespace TestResult

/-- A detail without the characters XML does not admit; an empty one is none. -/
def keptDetail (detail : Option String) : Option String :=
  (detail.map sanitize).filter fun d => !d.isEmpty

def passed (id : TestId) (s : Span) (o : Outcome) : TestResult :=
  ⟨id, .pass, none, keptDetail o.detail, s.startedAt, s.durationMs, 0⟩

def skipped (id : TestId) (s : Span) (r : SkipReason) : TestResult :=
  ⟨id, .skipped, none, keptDetail (some r.message), s.startedAt, s.durationMs, 0⟩

/-- Failed, or in error when the cause lies in the test. -/
def failed (id : TestId) (s : Span) (f : Failure) : TestResult :=
  ⟨id, if f.cause.isError then .error else .fail, some f.cause,
    keptDetail (some f.detail), s.startedAt, s.durationMs, 0⟩

def withMetrics (r : TestResult) (n : Nat) : TestResult :=
  { r with metrics := n }

def toJson (r : TestResult) : Json :=
  .object ([("id", .string r.id.text), ("status", .string r.status.wire)] ++
    Json.member? "cause" (r.cause.map fun c => .string c.wire) ++
    Json.member? "detail" (r.detail.map .string) ++
    [("started_at", .string r.startedAt.render),
      ("duration_ms", Json.ofNat r.durationMs),
      ("metrics", Json.ofNat r.metrics)])

def ofJson? (v : Json) : Option TestResult := do
  let f ← v.fields? .json ["id", "status", "cause", "detail", "started_at",
    "duration_ms", "metrics"] false
  return {
    id := ← f.required "id" fun v => v.asString?.bind TestId.ofText?
    status := ← f.required "status" (Json.choice? .json Status.cases)
    cause := ← f.omittable "cause" (Json.choice? .json FailureCause.cases)
    detail := ← f.omittable "detail" Json.asString?
    startedAt := ← f.required "started_at" Report.Log.timeOfJson?
    durationMs := ← f.required "duration_ms" (Json.unsigned? 64)
    metrics := ← f.required "metrics" (Json.unsigned? 64) }

end TestResult

end Compliance.Run
