import Compliance.Report.Outbox
import Compliance.Suite.Config

/-!
# Delivery of reports

What a suite knows about the delivery of its reports after the last flush.
-/

namespace Compliance.Run

open Compliance.Report (FlushReceipt ReportError)

structure Delivery where
  /-- Every log reached the collector. -/
  flushed : Bool
  /-- Logs delivered by the last flush. -/
  logsSent : Nat
  /-- Logs that still wait. -/
  pending : Nat
  batchId : Option String
  location : Option String
  error : Option String
  /-- The collector directory, relative to the output directory. -/
  dir : Option String
  deriving DecidableEq

namespace Delivery

def none : Delivery :=
  ⟨false, 0, 0, .none, .none, .none, .none⟩

/-- The collector directory of a later flush: the one asked for, else the one
that was used, else the default. -/
def reportDir (d : Delivery) (requested : Option String) : String :=
  (requested.or d.dir).getD Suite.defaultReportDir

/-- The delivery after a flush that left so many logs unsent.  A flush that had
nothing to send keeps the record of the batch before it. -/
def afterFlush (previous : Delivery) (unsent : Nat)
    (flush : Except ReportError FlushReceipt) : Delivery :=
  match flush with
  | .ok receipt =>
      if receipt.sent = 0 ∧ unsent = 0 then
        { previous with flushed := true, pending := 0, error := .none }
      else ⟨unsent == 0, receipt.sent, unsent, receipt.batchId, receipt.location,
        .none, previous.dir⟩
  | .error e =>
      ⟨false, 0, unsent, .none, .none, some e.message, previous.dir⟩

def toJson (d : Delivery) : Json :=
  .object ([("flushed", .bool d.flushed), ("logs_sent", Json.ofNat d.logsSent),
    ("pending", Json.ofNat d.pending)] ++
    Json.member? "batch_id" (d.batchId.map .string) ++
    Json.member? "location" (d.location.map .string) ++
    Json.member? "error" (d.error.map .string) ++
    Json.member? "dir" (d.dir.map .string))

def ofJson? (v : Json) : Option Delivery := do
  let f ← v.fields? .json ["flushed", "logs_sent", "pending", "batch_id",
    "location", "error", "dir"] false
  return {
    flushed := ← f.required "flushed" Json.asBool?
    logsSent := ← f.required "logs_sent" (Json.unsigned? 64)
    pending := ← f.required "pending" (Json.unsigned? 64)
    batchId := ← f.omittable "batch_id" Json.asString?
    location := ← f.omittable "location" Json.asString?
    error := ← f.omittable "error" Json.asString?
    dir := ← f.omittable "dir" Json.asString? }

end Delivery

end Compliance.Run
