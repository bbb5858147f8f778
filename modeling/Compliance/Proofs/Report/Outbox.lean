import Compliance.Proofs.SortedMaps
import Compliance.Report.Outbox

/-!
# What an outbox holds

Every slot is filed under the key of its own log, and the keys increase.  All
operations keep this.  A flush either has nothing to send, or hands over one
batch and then marks everything or leaves everything.
-/

namespace Compliance.Report

open Compliance.Ordered (KeyOrder Sorted)
open Compliance.Time (Timestamp)

theorem TestKey.parts_injective {a b : TestKey} (h : a.parts = b.parts) :
    a = b := by
  cases a
  cases b
  simpa [TestKey.parts] using h

theorem TestKey.lt_iff {a b : TestKey} : a < b ↔ a.parts < b.parts := Iff.rfl

instance : KeyOrder TestKey where
  irrefl := by
    intro a
    rw [TestKey.lt_iff]
    exact KeyOrder.irrefl a.parts
  trans := by
    intro a b c hab hbc
    rw [TestKey.lt_iff] at *
    exact KeyOrder.trans hab hbc
  connected := by
    intro a b hab hba
    rw [TestKey.lt_iff] at *
    exact TestKey.parts_injective (KeyOrder.connected hab hba)

namespace Outbox

/-- The slots are a map, and each is filed under the key of its own log. -/
structure Filed (o : Outbox) : Prop where
  sorted : Sorted o.slots
  ownKey : ∀ e ∈ o.slots, e.2.log.key = e.1

theorem filed_empty : empty.Filed :=
  ⟨Ordered.sorted_nil, by simp [empty]⟩

namespace Filed

variable {o : Outbox}

theorem put (h : o.Filed) {key : TestKey} {s : Slot} (hs : s.log.key = key) :
    (o.put key s).Filed := by
  refine ⟨h.sorted.put key s, ?_⟩
  intro e he
  rcases Ordered.key_of_mem_put he with rfl | he
  · exact hs
  · exact h.ownKey e he

theorem mem_iff (h : o.Filed) {key : TestKey} {s : Slot} :
    (key, s) ∈ o.slots ↔ o.slot? key = some s :=
  h.sorted.mem_iff

theorem key_eq (h : o.Filed) {key : TestKey} {s : Slot}
    (hs : o.slot? key = some s) : s.log.key = key :=
  h.ownKey (key, s) (h.mem_iff.2 hs)

theorem beginTest (h : o.Filed) (key : TestKey) (now : Timestamp) :
    (o.beginTest key now).Filed :=
  h.put rfl

theorem submit (h : o.Filed) (log : Log) : (o.submit log).Filed :=
  h.put rfl

theorem record (h : o.Filed) (key : TestKey) (m : Metric) (now : Timestamp) :
    (o.record key m now).2.Filed := by
  have hslot : ((o.slot? key).getD ⟨Log.start key now, false⟩).log.key = key := by
    cases hs : o.slot? key with
    | none => rfl
    | some s => exact h.key_eq hs
  unfold Outbox.record
  cases hadd : ((o.slot? key).getD ⟨Log.start key now, false⟩).log.add m with
  | error e => simpa [hadd] using h.put hslot
  | ok log =>
      have hkey : log.key = key := (Log.key_of_add hadd).trans hslot
      simpa [hadd] using h.put (s := ⟨log, false⟩) hkey

theorem markSent (h : o.Filed) : o.markSent.Filed := by
  refine ⟨?_, ?_⟩
  · have hkeys : o.markSent.slots.map (·.1) = o.slots.map (·.1) := by
      simp [Outbox.markSent]
    unfold Sorted
    rw [hkeys]
    exact h.sorted
  · intro e he
    obtain ⟨e', he', rfl⟩ := List.mem_map.1 he
    exact h.ownKey e' he'

/-- The logs that wait are those of the slots without a mark. -/
theorem mem_unsent (h : o.Filed) {log : Log} :
    log ∈ o.unsent ↔
      ∃ key s, o.slot? key = some s ∧ s.sent = false ∧ s.log = log := by
  simp only [Outbox.unsent, List.mem_map, List.mem_filter, Bool.not_eq_true',
    Prod.exists]
  constructor
  · rintro ⟨key, s, ⟨hmem, hsent⟩, hlog⟩
    exact ⟨key, s, h.mem_iff.1 hmem, hsent, hlog⟩
  · rintro ⟨key, s, hs, hsent, hlog⟩
    exact ⟨key, s, ⟨h.mem_iff.2 hs, hsent⟩, hlog⟩

/-- The logs that wait are handed over in the order of their keys. -/
theorem unsent_increasing (h : o.Filed) :
    (o.unsent.map (·.key)).Pairwise (· < ·) := by
  have hkeys : o.unsent.map (·.key) =
      (o.slots.filter fun e => !e.2.sent).map (·.1) := by
    simp only [Outbox.unsent, List.map_map]
    apply List.map_congr_left
    intro e he
    exact h.ownKey e (List.mem_filter.1 he).1
  rw [hkeys]
  exact h.sorted.sublist (List.filter_sublist.map _)

end Filed

theorem slot?_markSent (o : Outbox) (key : TestKey) :
    o.markSent.slot? key = (o.slot? key).map fun s => { s with sent := true } := by
  unfold slot? markSent
  induction o.slots with
  | nil => rfl
  | cons e rest ih =>
      obtain ⟨k, s⟩ := e
      rw [List.map_cons, Ordered.find?_cons, Ordered.find?_cons]
      split
      · rfl
      · exact ih

theorem log?_put_of_ne (o : Outbox) {key other : TestKey} (h : other ≠ key) (s : Slot) :
    (o.put key s).log? other = o.log? other :=
  congrArg (Option.map Slot.log) (slot?_put_of_ne h o s)

theorem log?_markSent (o : Outbox) (key : TestKey) : o.markSent.log? key = o.log? key := by
  rw [log?, slot?_markSent, Option.map_map]
  rfl

/-- A record is about one slot, whether it is refused or not. -/
theorem exists_put_of_record (o : Outbox) (key : TestKey) (m : Metric) (now : Timestamp) :
    ∃ s, (o.record key m now).2 = o.put key s := by
  simp only [record]
  split
  · exact ⟨_, rfl⟩
  · exact ⟨_, rfl⟩

/-- Without a mark on any of them, all logs wait. -/
theorem unsent_of_waiting {o : Outbox} (h : ∀ e ∈ o.slots, e.2.sent = false) :
    o.unsent = o.logs := by
  unfold unsent logs
  rw [List.filter_eq_self.2 fun e he => by simp [h e he]]

theorem unsent_sublist (o : Outbox) : o.unsent.Sublist o.logs :=
  List.filter_sublist.map _

/-! ## Flushing -/

variable {σ : Type} {o : Outbox} (c : Collector σ) (stamp : Stamp) (s : σ)

theorem flush_of_nil (h : o.unsent = []) :
    o.flush c stamp s = (.ok ⟨0, none, none⟩, o, s) := by
  simp [flush, h]

theorem flush_of_ok (h : o.unsent ≠ []) {a : Acceptance} {t : σ}
    (hc : c.accept (.assemble stamp.batchId stamp.now o.unsent) s = (.ok a, t)) :
    o.flush c stamp s =
      (.ok ⟨o.unsent.length, some a.batchId, some a.location⟩, o.markSent, t) := by
  unfold flush
  split
  · contradiction
  · simp [hc]

theorem flush_of_error (h : o.unsent ≠ []) {e : TransportError} {t : σ}
    (hc : c.accept (.assemble stamp.batchId stamp.now o.unsent) s = (.error e, t)) :
    o.flush c stamp s = (.error (.transport e), o, t) := by
  unfold flush
  split
  · contradiction
  · simp [hc]

/-- There is nothing to send, or the collector refuses the batch, or it takes it. -/
theorem flush_cases :
    (o.unsent = [] ∧ o.flush c stamp s = (.ok ⟨0, none, none⟩, o, s)) ∨
      o.unsent ≠ [] ∧
        ((∃ e t, c.accept (.assemble stamp.batchId stamp.now o.unsent) s = (.error e, t) ∧
            o.flush c stamp s = (.error (.transport e), o, t)) ∨
          ∃ a t, c.accept (.assemble stamp.batchId stamp.now o.unsent) s = (.ok a, t) ∧
            o.flush c stamp s =
              (.ok ⟨o.unsent.length, some a.batchId, some a.location⟩, o.markSent, t)) := by
  by_cases h : o.unsent = []
  · exact Or.inl ⟨h, flush_of_nil c stamp s h⟩
  · refine Or.inr ⟨h, ?_⟩
    cases hc : c.accept (.assemble stamp.batchId stamp.now o.unsent) s with
    | mk answer t =>
        cases answer with
        | error e => exact Or.inl ⟨e, t, rfl, flush_of_error c stamp s h hc⟩
        | ok a => exact Or.inr ⟨a, t, rfl, flush_of_ok c stamp s h hc⟩

/-- A flush marks everything or nothing. -/
theorem outbox_flush : (o.flush c stamp s).2.1 = o ∨ (o.flush c stamp s).2.1 = o.markSent := by
  rcases flush_cases (o := o) c stamp s with ⟨-, hf⟩ | ⟨-, ⟨e, t, -, hf⟩ | ⟨a, t, -, hf⟩⟩
  · left
    rw [hf]
  · left
    rw [hf]
  · right
    rw [hf]

/-- A flush changes marks and no log. -/
theorem log?_flush (key : TestKey) : (o.flush c stamp s).2.1.log? key = o.log? key := by
  rcases outbox_flush (o := o) c stamp s with h | h
  · rw [h]
  · rw [h, log?_markSent]

theorem unsentCount_markSent (o : Outbox) : o.markSent.unsentCount = 0 := by
  simp [unsentCount]

/-- A flush sends and leaves no more than what waited. -/
theorem flush_counts {o' : Outbox} {s' : σ} {flushed : Except ReportError FlushReceipt}
    (h : o.flush c stamp s = (flushed, o', s')) :
    o'.unsentCount ≤ o.unsentCount ∧ ∀ r, flushed = .ok r → r.sent ≤ o.unsentCount := by
  rcases flush_cases (o := o) c stamp s with ⟨-, hf⟩ | ⟨-, ⟨e, t, -, hf⟩ | ⟨a, t, -, hf⟩⟩
  · cases hf.symm.trans h
    refine ⟨Nat.le_refl _, ?_⟩
    rintro r ⟨⟩
    exact Nat.zero_le _
  · cases hf.symm.trans h
    exact ⟨Nat.le_refl _, by simp⟩
  · cases hf.symm.trans h
    rw [unsentCount_markSent]
    refine ⟨Nat.zero_le _, ?_⟩
    rintro r ⟨⟩
    exact Nat.le_refl _

/-- What a flush leaves of the store is what the collector leaves of it. -/
theorem store_flush (h : o.unsent ≠ []) : (o.flush c stamp s).2.2 =
    (c.accept (.assemble stamp.batchId stamp.now o.unsent) s).2 := by
  rcases flush_cases (o := o) c stamp s with ⟨hnil, -⟩ | ⟨-, ⟨e, t, hc, hf⟩ | ⟨a, t, hc, hf⟩⟩
  · exact absurd hnil h
  · rw [hf, hc]
  · rw [hf, hc]

end Outbox

end Compliance.Report
