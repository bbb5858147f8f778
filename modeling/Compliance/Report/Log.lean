import Compliance.Report.Error
import Compliance.Report.Metric
import Compliance.Time.Timestamp

/-!
# Report logs

The metrics of one test: at most one headline metric and details by name.  A
name is written once; what does not fit leaves the log as it was.
-/

namespace Compliance.Report

open Compliance.Time (Timestamp)

structure Log where
  key : TestKey
  createdAt : Timestamp
  headline : Option Metric
  /-- Details in name order. -/
  details : List (String × Metric)
  deriving DecidableEq

namespace Log

def start (key : TestKey) (now : Timestamp) : Log :=
  ⟨key, now, none, []⟩

/-- A log for a test named by its `class#method` text. -/
def forTest (text abi : String) (now : Timestamp) : Except ReportError Log :=
  match TestKey.ofText? text abi with
  | some key => .ok (start key now)
  | none => .error (.invalidKey text)

def detail? (log : Log) (name : String) : Option Metric :=
  Ordered.find? name log.details

/-- Records a detail under its name. -/
def add (log : Log) (m : Metric) : Except ReportError Log :=
  if !m.value.isFinite then .error (.invalidValue m.name)
  else if (log.detail? m.name).isSome then
    .error (.duplicateMetric log.key.display m.name)
  else .ok { log with details := Ordered.put m.name m log.details }

def setHeadline (log : Log) (m : Metric) : Except ReportError Log :=
  if !m.value.isFinite then .error (.invalidValue m.name)
  else if log.headline.isSome then
    .error (.duplicateMetric log.key.display m.name)
  else .ok { log with headline := some m }

/-- The number of recorded metrics. -/
def size (log : Log) : Nat :=
  log.details.length + log.headline.toList.length

def isEmpty (log : Log) : Bool :=
  log.size == 0

/-- The same log, its values being compared by their numbers. -/
def numEq (a b : Log) : Bool :=
  a.key == b.key && a.createdAt == b.createdAt &&
    a.headline.toList.isEqv b.headline.toList Metric.numEq &&
    a.details.isEqv b.details fun d e => d.1 == e.1 && d.2.numEq e.2

def toJson (log : Log) : Json :=
  .object ([("key", .object [("class_name", .string log.key.className),
      ("method_name", .string log.key.methodName),
      ("abi", .string log.key.abi)]),
    ("created_at", .string log.createdAt.render)] ++
    Json.member? "summary" (log.headline.map Metric.toJson) ++
    [("metrics", .object (log.details.map fun (n, m) => (n, m.toJson)))])

def keyOfJson? (v : Json) : Option TestKey := do
  let f ← v.fields? .json ["class_name", "method_name", "abi"] false
  return {
    className := ← f.required "class_name" Json.asString?
    methodName := ← f.required "method_name" Json.asString?
    abi := ← f.required "abi" Json.asString? }

def timeOfJson? (v : Json) : Option Timestamp :=
  v.asString?.bind Timestamp.read?

def ofJson? (v : Json) : Option Log := do
  let f ← v.fields? .json ["key", "created_at", "summary", "metrics"] false
  return {
    key := ← f.required "key" keyOfJson?
    createdAt := ← f.required "created_at" timeOfJson?
    headline := ← f.optional "summary" Metric.ofJson?
    details := ← f.defaulted "metrics" [] (Json.mapOf? Metric.ofJson?) }

theorem size_start (key : TestKey) (now : Timestamp) :
    (start key now).size = 0 := rfl

theorem key_of_add {log log' : Log} {m : Metric} (h : log.add m = .ok log') :
    log'.key = log.key := by
  unfold add at h
  split at h
  · simp at h
  · split at h
    · simp at h
    · simp only [Except.ok.injEq] at h
      rw [← h]

theorem key_of_setHeadline {log log' : Log} {m : Metric}
    (h : log.setHeadline m = .ok log') : log'.key = log.key := by
  unfold setHeadline at h
  split at h
  · simp at h
  · split at h
    · simp at h
    · simp only [Except.ok.injEq] at h
      rw [← h]

end Log

end Compliance.Report
