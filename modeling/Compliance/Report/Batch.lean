import Compliance.Digest.Sha256
import Compliance.Json.Canonical
import Compliance.Json.Reader
import Compliance.Report.Log

/-!
# Batches

The logs of one delivery, with a digest over their canonical form.
-/

namespace Compliance.Report

open Compliance.Time (Timestamp)

structure Batch where
  schemaVersion : Nat
  schemaId : String
  batchId : String
  createdAt : Timestamp
  logs : List Log
  digest : String
  deriving DecidableEq

namespace Batch

def currentVersion : Nat := 1

def currentSchema : String := "cts-report/batch@1"

/-- The text a digest is taken over. -/
def canonicalText (logs : List Log) : String :=
  (Json.array (logs.map Log.toJson)).canonicalText

def digestOf (logs : List Log) : String :=
  Digest.sha256OfText (canonicalText logs)

def assemble (batchId : String) (now : Timestamp) (logs : List Log) : Batch :=
  ⟨currentVersion, currentSchema, batchId, now, logs, digestOf logs⟩

/-- The digest is that of the logs. -/
def verifies (b : Batch) : Bool :=
  digestOf b.logs == b.digest

def toJson (b : Batch) : Json :=
  .object [("schema_version", Json.ofNat b.schemaVersion),
    ("schema_id", .string b.schemaId), ("batch_id", .string b.batchId),
    ("created_at", .string b.createdAt.render),
    ("logs", .array (b.logs.map Log.toJson)), ("digest", .string b.digest)]

def ofJson? (v : Json) : Option Batch := do
  let f ← v.fields? .json
    ["schema_version", "schema_id", "batch_id", "created_at", "logs", "digest"]
    false
  return {
    schemaVersion := ← f.required "schema_version" (Json.unsigned? 32)
    schemaId := ← f.required "schema_id" Json.asString?
    batchId := ← f.required "batch_id" Json.asString?
    createdAt := ← f.required "created_at" Log.timeOfJson?
    logs := ← f.required "logs" (Json.listOf? Log.ofJson?)
    digest := ← f.required "digest" Json.asString? }

def toText (b : Batch) : String :=
  b.toJson.print .pretty

def ofText? (text : String) : Option Batch :=
  (Json.ofText? text).bind ofJson?

theorem verifies_assemble (batchId : String) (now : Timestamp)
    (logs : List Log) : (assemble batchId now logs).verifies = true := by
  simp [verifies, assemble]

end Batch

end Compliance.Report
