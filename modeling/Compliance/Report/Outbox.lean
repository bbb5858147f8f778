import Compliance.Report.Collector

/-!
# The outbox

Logs by key, each with a mark whether it has been sent.  A flush hands every
unsent log to a collector in one batch.  Only an accepted batch changes marks,
so a failed flush is retried without running any test again.
-/

namespace Compliance.Report

open Compliance.Time (Timestamp)

structure Slot where
  log : Log
  sent : Bool
  deriving DecidableEq

structure Outbox where
  /-- Slots in key order. -/
  slots : List (TestKey × Slot)
  deriving DecidableEq

/-- What a flush did. -/
structure FlushReceipt where
  sent : Nat
  batchId : Option String
  location : Option String
  deriving DecidableEq

/-- The id and time the next batch gets, should there be one. -/
structure Stamp where
  batchId : String
  now : Timestamp

namespace Outbox

def empty : Outbox :=
  ⟨[]⟩

def slot? (o : Outbox) (key : TestKey) : Option Slot :=
  Ordered.find? key o.slots

def put (o : Outbox) (key : TestKey) (s : Slot) : Outbox :=
  ⟨Ordered.put key s o.slots⟩

/-- Starts an empty log for a test, in place of any earlier one. -/
def beginTest (o : Outbox) (key : TestKey) (now : Timestamp) : Outbox :=
  o.put key ⟨Log.start key now, false⟩

/-- Records a detail.  A key without a log gets an empty log first, and keeps it
even if the metric is refused. -/
def record (o : Outbox) (key : TestKey) (m : Metric) (now : Timestamp) :
    Except ReportError Unit × Outbox :=
  let s := (o.slot? key).getD ⟨Log.start key now, false⟩
  match s.log.add m with
  | .error e => (.error e, o.put key s)
  | .ok log => (.ok (), o.put key ⟨log, false⟩)

/-- Files a finished log, in place of any earlier one of its key. -/
def submit (o : Outbox) (log : Log) : Outbox :=
  o.put log.key ⟨log, false⟩

def log? (o : Outbox) (key : TestKey) : Option Log :=
  (o.slot? key).map (·.log)

def isSent? (o : Outbox) (key : TestKey) : Option Bool :=
  (o.slot? key).map (·.sent)

def logs (o : Outbox) : List Log :=
  o.slots.map (·.2.log)

def size (o : Outbox) : Nat :=
  o.slots.length

/-- The logs that wait, in key order. -/
def unsent (o : Outbox) : List Log :=
  (o.slots.filter fun s => !s.2.sent).map (·.2.log)

def unsentCount (o : Outbox) : Nat :=
  o.unsent.length

def markSent (o : Outbox) : Outbox :=
  ⟨o.slots.map fun (k, s) => (k, { s with sent := true })⟩

/-- Sends every unsent log as one batch; with nothing to send the collector is
not called. -/
def flush {σ : Type} (o : Outbox) (c : Collector σ) (stamp : Stamp) (s : σ) :
    Except ReportError FlushReceipt × Outbox × σ :=
  match o.unsent with
  | [] => (.ok ⟨0, none, none⟩, o, s)
  | waiting =>
      match c.accept (Batch.assemble stamp.batchId stamp.now waiting) s with
      | (.error e, s) => (.error (.transport e), o, s)
      | (.ok a, s) =>
          (.ok ⟨waiting.length, some a.batchId, some a.location⟩, o.markSent, s)

/-! ## The saved form -/

def Slot.toJson (s : Slot) : Json :=
  .object [("log", s.log.toJson), ("sent", .bool s.sent)]

def Slot.ofJson? (v : Json) : Option Slot := do
  let f ← v.fields? .json ["log", "sent"] false
  return {
    log := ← f.required "log" Log.ofJson?
    sent := ← f.required "sent" Json.asBool? }

def toJson (o : Outbox) : Json :=
  .object [("entries", .array (o.slots.map fun s => Slot.toJson s.2))]

/-- Each slot is filed under the key of its own log; the last of a key stays. -/
def ofSlots (slots : List Slot) : Outbox :=
  ⟨Ordered.putAll (slots.map fun s => (s.log.key, s)) []⟩

def ofJson? (v : Json) : Option Outbox := do
  let f ← v.fields? .json ["entries"] false
  return ofSlots (← f.required "entries" (Json.listOf? Slot.ofJson?))

def toText (o : Outbox) : String :=
  o.toJson.print .pretty

def ofText? (text : String) : Option Outbox :=
  (Json.ofText? text).bind ofJson?

def save (o : Outbox) (t : Files.Tree) (path : String) :
    Files.Tree × Except Files.FileError Unit :=
  t.replaceText (Files.withExtension path "json.tmp") path o.toText

def load (t : Files.Tree) (path : String) : Except ReportError Outbox :=
  match t.readText path with
  | .error e => .error (.file e)
  | .ok text =>
      match ofText? text with
      | none => .error (.malformed "not a saved outbox")
      | some o => .ok o

@[simp] theorem slot?_put_self (o : Outbox) (key : TestKey) (s : Slot) :
    (o.put key s).slot? key = some s := by
  simp [slot?, put]

theorem slot?_put_of_ne {key other : TestKey} (h : other ≠ key) (o : Outbox)
    (s : Slot) : (o.put key s).slot? other = o.slot? other := by
  simp [slot?, put, Ordered.find?_put_of_ne h]

@[simp] theorem unsent_markSent (o : Outbox) : o.markSent.unsent = [] := by
  simp only [unsent, markSent, List.map_eq_nil_iff, List.filter_eq_nil_iff]
  intro s hs
  obtain ⟨⟨k, s'⟩, _, rfl⟩ := List.mem_map.1 hs
  simp

@[simp] theorem logs_markSent (o : Outbox) : o.markSent.logs = o.logs := by
  simp [logs, markSent]

end Outbox

end Compliance.Report
