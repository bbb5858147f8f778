import Compliance.Report.Batch

/-!
# Collectors

A collector takes batches; what it keeps is its own state.  One writes each
batch to a directory, one keeps batches in memory.
-/

namespace Compliance.Report

/-- Where an accepted batch went. -/
structure Acceptance where
  batchId : String
  location : String
  deriving DecidableEq

structure Collector (σ : Type) where
  accept : Batch → σ → Except TransportError Acceptance × σ

/-- The file a batch is written to. -/
def batchPath (directory batchId : String) : String :=
  Files.join directory ("batch-" ++ batchId ++ ".json")

/-- The file a batch is written to before it gets its name. -/
def batchTemporary (directory batchId : String) : String :=
  Files.join directory (".batch-" ++ batchId ++ ".json.tmp")

namespace Collector

/-- Writes each batch to a file of its own, making the directory when the first
one comes. -/
def toDirectory (directory : String) : Collector Files.Tree where
  accept b t :=
    match t.createDirectories directory with
    | (t, .error e) => (.error (.file e), t)
    | (t, .ok ()) =>
        let path := batchPath directory b.batchId
        match t.replaceText (batchTemporary directory b.batchId) path b.toText with
        | (t, .error e) => (.error (.file e), t)
        | (t, .ok ()) => (.ok ⟨b.batchId, path⟩, t)

end Collector

/-- The state of a collector that keeps batches and can be told to fail. -/
structure Mailbox where
  batches : List Batch
  failures : Nat
  attempts : Nat

namespace Mailbox

def empty : Mailbox :=
  ⟨[], 0, 0⟩

def failNext (m : Mailbox) (count : Nat) : Mailbox :=
  { m with failures := count }

def take (b : Batch) (m : Mailbox) : Except TransportError Acceptance × Mailbox :=
  let m := { m with attempts := m.attempts + 1 }
  match m.failures with
  | n + 1 =>
      (.error (.unavailable "injected failure"), { m with failures := n })
  | 0 =>
      (.ok ⟨b.batchId, "memory"⟩, { m with batches := m.batches ++ [b] })

end Mailbox

namespace Collector

def inMemory : Collector Mailbox where
  accept := Mailbox.take

/-- Refuses every batch and leaves the state alone. -/
def refusing {σ : Type} (reason : String) : Collector σ where
  accept b s := (.error (.rejected b.batchId reason), s)

/-- A collector that works on a part of a larger state. -/
def within {σ τ : Type} (get : τ → σ) (set : σ → τ → τ) (c : Collector σ) :
    Collector τ where
  accept b t :=
    let (answer, s) := c.accept b (get t)
    (answer, set s t)

end Collector

end Compliance.Report
