import Compliance.Proofs.Report.Filing
import Compliance.Proofs.Report.Saved

/-!
# Batches that verify for their readers

The digest of a batch is taken over one form of its logs and the file holds another.
Since the file gives back the very logs, the digest in it is still theirs.
-/

namespace Compliance.Report

open Compliance.Files (Tree)
open Compliance.Time (Timestamp)

/-- What a reader finds in a text: a batch with an intact digest. -/
structure Batch.IntactIn (text : String) (b : Batch) : Prop where
  read : ofText? text = some b
  verifies : b.verifies = true

theorem Batch.intact_assemble (batchId : String) {now : Timestamp} {logs : List Log}
    (ht : now.Valid) (hl : ∀ log ∈ logs, log.WellFormed) :
    IntactIn (assemble batchId now logs).toText (assemble batchId now logs) :=
  ⟨ofText?_assemble batchId ht hl, verifies_assemble batchId now logs⟩

namespace Outbox

variable {σ : Type} {o o' : Outbox} {c : Collector σ} {stamp : Stamp} {s s' : σ}
  {r : FlushReceipt}

/-- A flush that delivers had its batch accepted. -/
theorem accept_of_flush (hne : o.unsent ≠ []) (h : o.flush c stamp s = (.ok r, o', s')) :
    ∃ a, c.accept (.assemble stamp.batchId stamp.now o.unsent) s = (.ok a, s') ∧
      r = ⟨o.unsent.length, some a.batchId, some a.location⟩ := by
  cases hc : c.accept (.assemble stamp.batchId stamp.now o.unsent) s with
  | mk answer t =>
      cases answer with
      | error e =>
          rw [flush_of_error c stamp s hne hc] at h
          simp at h
      | ok a =>
          rw [flush_of_ok c stamp s hne hc] at h
          simp only [Prod.mk.injEq, Except.ok.injEq] at h
          obtain ⟨hr, -, ht⟩ := h
          exact ⟨a, by rw [ht], hr.symm⟩

end Outbox

/-- An assembled batch verifies, is read from its text as it was and verifies again.
So does every batch that a flush gets into a directory, at the place its receipt names. -/
theorem written_batches_verify :
    (∀ (batchId : String) (now : Timestamp) (logs : List Log), now.Valid →
      (∀ log ∈ logs, log.WellFormed) →
        let b := Batch.assemble batchId now logs
        b.verifies = true ∧
          ∃ b', Batch.IntactIn b.toText b' ∧ b' = b ∧ b'.logs = logs) ∧
      ∀ (o o' : Outbox) (directory : String) (stamp : Stamp) (t t' : Tree)
        (r : FlushReceipt), stamp.now.Valid → (∀ log ∈ o.unsent, log.WellFormed) →
          o.unsent ≠ [] → o.flush (.toDirectory directory) stamp t = (.ok r, o', t') →
            ∃ path text b, r.location = some path ∧ t'.readText path = .ok text ∧
              Batch.IntactIn text b ∧ b.batchId = stamp.batchId ∧
              b.createdAt = stamp.now ∧ b.logs = o.unsent := by
  refine ⟨?_, ?_⟩
  · intro batchId now logs ht hl b
    have hintact := Batch.intact_assemble batchId ht hl
    exact ⟨hintact.verifies, b, hintact, rfl, rfl⟩
  · intro o o' directory stamp t t' r ht hl hne h
    obtain ⟨a, haccept, rfl⟩ := Outbox.accept_of_flush hne h
    obtain ⟨-, hread⟩ := Collector.readText_of_ok haccept
    exact ⟨a.location, _, _, rfl, hread, Batch.intact_assemble stamp.batchId ht hl, rfl, rfl,
      rfl⟩

/-! ## A batch with the numbers at the ends of the range -/

/-- A minus zero, the least positive number, the greatest one and an empty series. -/
def extremeLog : Log :=
  ⟨⟨"a b", "\"c\"", ""⟩, ⟨-1, 1999999999⟩,
    some ⟨"", .single .negativeZero, .none, .neutral⟩,
    [("", ⟨"other", .series [], .ms, .lowerBetter⟩),
      ("é", ⟨"", .series [⟨1⟩, ⟨0x7FEFFFFFFFFFFFFF⟩], .hz, .warning⟩)]⟩

theorem wellFormed_extremeLog : extremeLog.WellFormed where
  started := ⟨by decide, by decide, by decide⟩
  headline := by
    rintro m ⟨⟩
    decide
  details := by decide
  sorted := by
    unfold Ordered.Sorted
    decide

def extremeStamp : Stamp :=
  ⟨"first", ⟨-62167219200, 1000⟩⟩

theorem valid_extremeStamp : extremeStamp.now.Valid :=
  ⟨by decide, by decide, by decide⟩

theorem accept_first {b : Batch} (hb : b.batchId = "first") :
    ∃ t', (Collector.toDirectory "out").accept b .empty =
      (.ok ⟨"first", "out/batch-first.json"⟩, t') := by
  have hmade : Tree.createDirectories .empty "out" = (⟨[(["out"], .directory)], []⟩, .ok ()) :=
    rfl
  have hname : batchPath "out" "first" = "out/batch-first.json" := by decide
  simp only [Collector.toDirectory, hmade, hb, hname]
  exact ⟨_, rfl⟩

theorem written_batches_verify_extreme :
    (Batch.assemble "first" extremeStamp.now [extremeLog]).verifies = true ∧
      ∃ r o' t' text b,
        (Outbox.empty.submit extremeLog).flush (.toDirectory "out") extremeStamp .empty =
            (.ok r, o', t') ∧
          t'.readText "out/batch-first.json" = .ok text ∧ Batch.IntactIn text b ∧
            b.logs = [extremeLog] := by
  have hlogs : ∀ log ∈ [extremeLog], log.WellFormed := by
    intro log hlog
    rw [List.mem_singleton.1 hlog]
    exact wellFormed_extremeLog
  have hunsent : (Outbox.empty.submit extremeLog).unsent = [extremeLog] := rfl
  obtain ⟨hassembled, hflushed⟩ := written_batches_verify
  refine ⟨(hassembled "first" _ _ valid_extremeStamp hlogs).1, ?_⟩
  obtain ⟨t', haccept⟩ := accept_first
    (b := .assemble extremeStamp.batchId extremeStamp.now [extremeLog]) rfl
  have hflush := Outbox.flush_of_ok (.toDirectory "out") extremeStamp .empty
    (o := Outbox.empty.submit extremeLog) (by simp [hunsent]) haccept
  obtain ⟨path, text, b, hpath, hread, hintact, -, -, hb⟩ :=
    hflushed _ _ _ _ _ _ _ valid_extremeStamp (hunsent ▸ hlogs) (by simp [hunsent]) hflush
  cases hpath
  exact ⟨_, _, t', text, b, hflush, hread, hintact, hb⟩

end Compliance.Report
