import Compliance.Proofs.Report.Delivery

/-!
# Refused records

A refused record leaves an outbox alone when its key has a log already.  A new
key gets its empty log before the value is looked at, and keeps it: the outbox
holds one log more, and the next flush hands it over.
-/

namespace Compliance.Report

open Compliance.Time (Timestamp)

/-- In an empty log no name is taken, so only the value of a metric can be wrong. -/
theorem Log.error_of_add_start {key : TestKey} {now : Timestamp} {m : Metric} {e : ReportError}
    (h : (Log.start key now).add m = .error e) : e = .invalidValue m.name := by
  unfold add at h
  split at h
  · exact (Except.error.inj h).symm
  · simp [start, detail?] at h

namespace Outbox

/-- The outboxes that any use of them leads to. -/
inductive Reached : Outbox → Prop where
  | empty : Reached .empty
  | loaded {text : String} {o : Outbox} (h : ofText? text = some o) : Reached o
  | beginTest {o : Outbox} (h : Reached o) (key : TestKey) (now : Timestamp) :
      Reached (o.beginTest key now)
  | record {o : Outbox} (h : Reached o) (key : TestKey) (m : Metric) (now : Timestamp) :
      Reached (o.record key m now).2
  | submit {o : Outbox} (h : Reached o) (log : Log) : Reached (o.submit log)
  | flush {o : Outbox} (h : Reached o) {σ : Type} (c : Collector σ) (stamp : Stamp) (s : σ) :
      Reached (o.flush c stamp s).2.1

theorem filed_ofSlots (slots : List Slot) : (ofSlots slots).Filed := by
  have hputAll (table : Outbox) (h : table.Filed) :
      Filed ⟨Ordered.putAll (slots.map fun s => (s.log.key, s)) table.slots⟩ := by
    induction slots generalizing table with
    | nil => exact h
    | cons s rest ih => exact ih (table.put s.log.key s) (h.put rfl)
  exact hputAll .empty filed_empty

theorem Reached.filed {o : Outbox} (h : o.Reached) : o.Filed := by
  induction h with
  | empty => exact filed_empty
  | @loaded text o h =>
      obtain ⟨v, -, hv⟩ := Option.bind_eq_some_iff.1 h
      obtain ⟨f, -, hf⟩ := Option.bind_eq_some_iff.1 hv
      obtain ⟨slots, -, hslots⟩ := Option.bind_eq_some_iff.1 hf
      exact Option.some.inj hslots ▸ filed_ofSlots slots
  | beginTest _ key now ih => exact ih.beginTest key now
  | record _ key m now ih => exact ih.record key m now
  | submit _ log ih => exact ih.submit log
  | flush _ c stamp s ih =>
      rcases outbox_flush c stamp s with hsame | hmarked
      · rwa [hsame]
      · rw [hmarked]
        exact ih.markSent

/-! ## What a refusal leaves -/

section Refused

variable {o o' : Outbox} {key : TestKey} {m : Metric} {now : Timestamp} {e : ReportError}

/-- A refused record puts back the slot it found, or the empty one it made. -/
theorem put_of_record_error (h : o.record key m now = (.error e, o')) :
    ((o.slot? key).getD ⟨.start key now, false⟩).log.add m = .error e ∧
      o' = o.put key ((o.slot? key).getD ⟨.start key now, false⟩) := by
  unfold record at h
  cases hadd : ((o.slot? key).getD ⟨.start key now, false⟩).log.add m with
  | ok log => simp [hadd] at h
  | error e' =>
      simp only [hadd, Prod.mk.injEq, Except.error.injEq] at h
      exact ⟨h.1 ▸ rfl, h.2.symm⟩

theorem eq_of_record_error {s : Slot} (ho : o.Filed) (hs : o.slot? key = some s)
    (h : o.record key m now = (.error e, o')) : o' = o := by
  obtain ⟨-, rfl⟩ := put_of_record_error h
  rw [hs, Option.getD_some]
  exact congrArg mk (ho.sorted.put_of_find? hs)

/-- The outbox with an empty log more, which the next flush hands over. -/
structure LeftOver (o : Outbox) (key : TestKey) (now : Timestamp) (o' : Outbox) : Prop where
  slot : o'.slot? key = some ⟨.start key now, false⟩
  others : ∀ other, other ≠ key → o'.slot? other = o.slot? other
  size : o'.size = o.size + 1
  unsentCount : o'.unsentCount = o.unsentCount + 1
  shipped : ∀ {σ : Type} (c : Collector σ) (stamp : Stamp) (s : σ), ∃ b answer,
    (o'.flush c.logged stamp (s, [])).2.2.2 = [(b, answer)] ∧ .start key now ∈ b.logs

theorem leftOver_of_record_error (ho : o.Filed) (hs : o.slot? key = none)
    (h : o.record key m now = (.error e, o')) : LeftOver o key now o' := by
  have hfiled : o'.Filed := by
    have hrecord := ho.record key m now
    rwa [h] at hrecord
  obtain ⟨-, rfl⟩ := put_of_record_error h
  rw [hs, Option.getD_none] at hfiled ⊢
  have hslots := Ordered.put_perm hs (⟨.start key now, false⟩ : Slot)
  have hslot := slot?_put_self o key ⟨.start key now, false⟩
  have hwaits : .start key now ∈ (o.put key ⟨.start key now, false⟩).unsent :=
    hfiled.mem_unsent.2 ⟨key, _, hslot, rfl, rfl⟩
  refine ⟨hslot, fun other hne => slot?_put_of_ne hne o _, hslots.length_eq, ?_, ?_⟩
  · have hunsent := (hslots.filter fun e => !e.2.sent).length_eq
    simpa [unsentCount, unsent, put] using hunsent
  · intro σ c stamp s
    obtain ⟨b, answer, t, result, o'', hflush, -, -, hover⟩ :=
      flush_logged hfiled c stamp s (List.ne_nil_of_mem hwaits)
    refine ⟨b, answer, by rw [hflush], ?_⟩
    exact (hover.unsent _).2 ⟨key, _, hslot, rfl, rfl⟩

/-- A refused record leaves no trace in an outbox that knows its key, and only
there: under a new key, which a bad value alone can bring, an empty log stays
behind and waits. -/
theorem record_refused (ho : o.Reached) (h : o.record key m now = (.error e, o')) :
    (o' = o ↔ (o.slot? key).isSome = true) ∧
      (o.slot? key = none → e = .invalidValue m.name ∧ LeftOver o key now o') := by
  cases hs : o.slot? key with
  | some s => exact ⟨by simp [eq_of_record_error ho.filed hs h], nofun⟩
  | none =>
      have hleft := leftOver_of_record_error ho.filed hs h
      obtain ⟨hadd, -⟩ := put_of_record_error h
      rw [hs, Option.getD_none] at hadd
      refine ⟨⟨?_, nofun⟩, fun _ => ⟨Log.error_of_add_start hadd, hleft⟩⟩
      rintro rfl
      exact absurd hleft.size (Nat.ne_of_lt (Nat.lt_succ_self _))

end Refused

/-! ## A record refused twice -/

def levelKey : TestKey :=
  ⟨"Link", "level", "x86"⟩

def level (v : Number.Binary64) : Metric :=
  ⟨"level", .single v, .none, .neutral⟩

/-- The first value is recorded under a new key. -/
def levelOutbox : Outbox :=
  (empty.record levelKey (level (.ofNat 7)) (.ofMillis 0)).2

theorem record_refused_level :
    levelOutbox.record levelKey (level (.ofNat 8)) (.ofMillis 1) =
        (.error (.duplicateMetric levelKey.display "level"), levelOutbox) ∧
      ∃ o', empty.record levelKey (level .notANumber) (.ofMillis 0) =
          (.error (.invalidValue "level"), o') ∧
        LeftOver empty levelKey (.ofMillis 0) o' := by
  have hrepeated : levelOutbox.record levelKey (level (.ofNat 8)) (.ofMillis 1) =
      (.error (.duplicateMetric levelKey.display "level"),
        (levelOutbox.record levelKey (level (.ofNat 8)) (.ofMillis 1)).2) := by
    decide +kernel
  have hnew : empty.record levelKey (level .notANumber) (.ofMillis 0) =
      (.error (.invalidValue "level"), _) := rfl
  have hreached : levelOutbox.Reached := Reached.empty.record levelKey _ _
  have hsame := (record_refused hreached hrepeated).1.2 (by decide +kernel)
  have hleft := ((record_refused .empty hnew).2 rfl).2
  exact ⟨hrepeated.trans (congrArg _ hsame), _, hnew, hleft⟩

/-- A refused record can leave a trace: a key, an empty log and a report to send. -/
theorem record_refused_with_trace :
    ¬ ∀ (o : Outbox) (key : TestKey) (m : Metric) (now : Timestamp) (e : ReportError)
      (o' : Outbox), o.Reached → o.record key m now = (.error e, o') → o' = o := by
  intro hatomic
  have hsame := hatomic empty levelKey (level .notANumber) (.ofMillis 0)
    (.invalidValue "level") _ .empty rfl
  have hsize := congrArg size hsame
  exact absurd hsize (by decide +kernel)

end Outbox

end Compliance.Report
