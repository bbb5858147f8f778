import Compliance.Proofs.Report.Outbox

/-!
# The delivery law of an outbox

A history is any sequence of operations on an outbox, with a collector that
answers each batch as it likes.  The mark of a slot says exactly whether its
log was in a batch accepted since the log was last renewed.  No operation changes
a log that it is not about.
-/

namespace Compliance.Report

open Compliance.Time (Timestamp)

variable {σ : Type}

/-- What is kept of one call of a collector. -/
abbrev Call := Batch × Except TransportError Acceptance

/-- The collector with a record of its calls. -/
def Collector.logged (c : Collector σ) : Collector (σ × List Call) where
  accept b s :=
    let (answer, t) := c.accept b s.1
    (answer, t, s.2 ++ [(b, answer)])

inductive Operation where
  | beginTest (key : TestKey) (now : Timestamp)
  | record (key : TestKey) (m : Metric) (now : Timestamp)
  | submit (log : Log)
  | flush (stamp : Stamp)

/-- The key whose log an operation starts, replaces or adds to. -/
def Operation.key? : Operation → Option TestKey
  | beginTest key _ => some key
  | record key _ _ => some key
  | submit log => some log.key
  | flush _ => none

inductive Incident where
  /-- The log of a key was started, replaced or added to. -/
  | renewed (key : TestKey)
  | called (call : Call)
  deriving DecidableEq

/-- An outbox and its collector, with what happened so far. -/
structure History (σ : Type) where
  outbox : Outbox
  store : σ
  incidents : List Incident

namespace History

def start (s : σ) : History σ :=
  ⟨.empty, s, []⟩

def perform (c : Collector σ) (h : History σ) : Operation → History σ
  | .beginTest key now =>
      { h with
        outbox := h.outbox.beginTest key now
        incidents := h.incidents ++ [.renewed key] }
  | .record key m now =>
      match h.outbox.record key m now with
      | (.ok (), o) =>
          { h with outbox := o, incidents := h.incidents ++ [.renewed key] }
      | (.error _, o) => { h with outbox := o }
  | .submit log =>
      { h with
        outbox := h.outbox.submit log
        incidents := h.incidents ++ [.renewed log.key] }
  | .flush stamp =>
      let (_, o, s, calls) := h.outbox.flush c.logged stamp (h.store, [])
      ⟨o, s, h.incidents ++ calls.map .called⟩

def run (c : Collector σ) (h : History σ) (ops : List Operation) : History σ :=
  ops.foldl (perform c) h

end History

/-- The log was in a batch accepted since the key was last renewed. -/
def Delivered (key : TestKey) (log : Log) (incidents : List Incident) : Prop :=
  ∃ before b a after, incidents = before ++ .called (b, .ok a) :: after ∧
    log ∈ b.logs ∧ .renewed key ∉ after

/-- The last incident either delivered the log or did not renew its key. -/
theorem delivered_append {key : TestKey} {log : Log} {incidents : List Incident}
    {i : Incident} :
    Delivered key log (incidents ++ [i]) ↔
      (∃ b a, i = .called (b, .ok a) ∧ log ∈ b.logs) ∨
        (i ≠ .renewed key ∧ Delivered key log incidents) := by
  constructor
  · rintro ⟨before, b, a, after, h, hlog, hkey⟩
    rcases List.eq_nil_or_concat after with rfl | ⟨after, j, rfl⟩
    · left
      have hlast := List.append_inj_right' h rfl
      exact ⟨b, a, (List.cons.inj hlast).1, hlog⟩
    · right
      have h' : incidents ++ [i] =
          (before ++ .called (b, .ok a) :: after) ++ [j] := by
        simpa using h
      have hinit := List.append_inj_left' h' rfl
      have hij : i = j := (List.cons.inj (List.append_inj_right' h' rfl)).1
      simp only [List.concat_eq_append, List.mem_append, List.mem_singleton, not_or]
        at hkey
      exact ⟨fun he => hkey.2 (he.symm.trans hij), before, b, a, after, hinit, hlog,
        hkey.1⟩
  · rintro (⟨b, a, rfl, hlog⟩ | ⟨hi, before, b, a, after, rfl, hlog, hkey⟩)
    · exact ⟨incidents, b, a, [], rfl, hlog, by simp⟩
    · refine ⟨before, b, a, after ++ [i], by simp, hlog, ?_⟩
      simp only [List.mem_append, List.mem_singleton, not_or]
      exact ⟨hkey, fun he => hi he.symm⟩

theorem delivered_append_renewed {key other : TestKey} {log : Log}
    {incidents : List Incident} :
    Delivered key log (incidents ++ [.renewed other]) ↔
      key ≠ other ∧ Delivered key log incidents := by
  rw [delivered_append]
  simp [eq_comm]

theorem delivered_append_accepted {key : TestKey} {log : Log}
    {incidents : List Incident} {b : Batch} {a : Acceptance} :
    Delivered key log (incidents ++ [.called (b, .ok a)]) ↔
      log ∈ b.logs ∨ Delivered key log incidents := by
  rw [delivered_append]
  simp

theorem delivered_append_refused {key : TestKey} {log : Log}
    {incidents : List Incident} {b : Batch} {e : TransportError} :
    Delivered key log (incidents ++ [.called (b, .error e)]) ↔
      Delivered key log incidents := by
  rw [delivered_append]
  simp

/-- A log that was delivered was in some batch that the collector was handed. -/
theorem Delivered.exists_call {key : TestKey} {log : Log}
    {incidents : List Incident} (h : Delivered key log incidents) :
    ∃ b answer, .called (b, answer) ∈ incidents ∧ log ∈ b.logs := by
  obtain ⟨before, b, a, after, rfl, hlog, -⟩ := h
  exact ⟨b, .ok a, by simp, hlog⟩

/-! ## What one flush does -/

/-- How the outbox, the answer and the receipt of a flush belong together when
there is something to send. -/
structure Handover (o : Outbox) (b : Batch)
    (answer : Except TransportError Acceptance)
    (result : Except ReportError FlushReceipt) (o' : Outbox) : Prop where
  unsent : ∀ log, log ∈ b.logs ↔
    ∃ key s, o.slot? key = some s ∧ s.sent = false ∧ s.log = log
  increasing : (b.logs.map (·.key)).Pairwise (· < ·)
  accepted : ∀ a, answer = .ok a →
    result = .ok ⟨b.logs.length, some a.batchId, some a.location⟩ ∧
      ∀ key, o'.slot? key = (o.slot? key).map fun s => { s with sent := true }
  refused : ∀ e, answer = .error e → result = .error (.transport e)
  unchanged : (∃ e, result = .error e) → o' = o

theorem Outbox.flush_logged {o : Outbox} (h : o.Filed) (c : Collector σ)
    (stamp : Stamp) (s : σ) (hne : o.unsent ≠ []) :
    ∃ b answer t result o',
      o.flush c.logged stamp (s, []) = (result, o', t, [(b, answer)]) ∧
        o.flush c stamp s = (result, o', t) ∧ o'.Filed ∧
          Handover o b answer result o' := by
  let b := Batch.assemble stamp.batchId stamp.now o.unsent
  cases hc : c.accept b s with
  | mk answer t =>
      cases answer with
      | error e =>
          have hlogged : c.logged.accept b (s, []) =
              (.error e, t, [(b, .error e)]) := by
            simp [Collector.logged, hc]
          refine ⟨b, .error e, t, .error (.transport e), o,
            flush_of_error c.logged stamp (s, []) hne hlogged,
            flush_of_error c stamp s hne hc, h, fun _ => h.mem_unsent, h.unsent_increasing, ?_, ?_, fun _ => rfl⟩
          · intro a ha
            cases ha
          · intro e' he
            cases he
            rfl
      | ok a =>
          have hlogged : c.logged.accept b (s, []) = (.ok a, t, [(b, .ok a)]) := by
            simp [Collector.logged, hc]
          refine ⟨b, .ok a, t, _, o.markSent,
            flush_of_ok c.logged stamp (s, []) hne hlogged,
            flush_of_ok c stamp s hne hc, h.markSent, fun _ => h.mem_unsent, h.unsent_increasing, ?_, ?_, ?_⟩
          · intro a' ha
            cases ha
            exact ⟨rfl, o.slot?_markSent⟩
          · intro e he
            cases he
          · rintro ⟨e, he⟩
            cases he

theorem Outbox.flush_logged_of_nil {o : Outbox} (c : Collector σ) (stamp : Stamp)
    (s : σ) (h : o.unsent = []) :
    o.flush c.logged stamp (s, []) = (.ok ⟨0, none, none⟩, o, s, []) :=
  flush_of_nil c.logged stamp (s, []) h

/-! ## Whole histories -/

/-- What holds at every moment of a history. -/
structure History.Accounted (h : History σ) : Prop where
  filed : h.outbox.Filed
  /-- Keys are never taken out again. -/
  known : ∀ b answer, .called (b, answer) ∈ h.incidents →
    ∀ log ∈ b.logs, (h.outbox.slot? log.key).isSome
  marked : ∀ key s, h.outbox.slot? key = some s →
    (s.sent = true ↔ Delivered key s.log h.incidents)

namespace History

variable {h : History σ}

theorem accounted_start (s : σ) : (start s).Accounted where
  filed := Outbox.filed_empty
  known := by simp [start]
  marked := by simp [start, Outbox.slot?, Outbox.empty]

/-- A slot put in without a mark, in place of any earlier one of its key. -/
theorem Accounted.renew (ha : h.Accounted) {key : TestKey} {log : Log}
    (hkey : log.key = key) :
    Accounted ⟨h.outbox.put key ⟨log, false⟩, h.store,
      h.incidents ++ [.renewed key]⟩ where
  filed := ha.filed.put hkey
  known := by
    intro b answer hcall log' hlog'
    have hmem : .called (b, answer) ∈ h.incidents := by simpa using hcall
    by_cases heq : log'.key = key
    · simp [heq]
    · rw [Outbox.slot?_put_of_ne heq]
      exact ha.known b answer hmem log' hlog'
  marked := by
    intro other s hs
    rw [delivered_append_renewed]
    by_cases heq : other = key
    · subst heq
      rw [Outbox.slot?_put_self] at hs
      cases hs
      simp
    · rw [Outbox.slot?_put_of_ne heq] at hs
      rw [ha.marked other s hs]
      simp [heq]

/-- A key without a slot gets an empty one; nothing of it was delivered. -/
theorem Accounted.insert (ha : h.Accounted) {key : TestKey} (now : Timestamp)
    (hnone : h.outbox.slot? key = none) :
    Accounted ⟨h.outbox.put key ⟨Log.start key now, false⟩, h.store,
      h.incidents⟩ where
  filed := ha.filed.put rfl
  known := by
    intro b answer hcall log hlog
    by_cases heq : log.key = key
    · simp [heq]
    · rw [Outbox.slot?_put_of_ne heq]
      exact ha.known b answer hcall log hlog
  marked := by
    intro other s hs
    by_cases heq : other = key
    · subst heq
      rw [Outbox.slot?_put_self] at hs
      cases hs
      refine ⟨fun hsent => Bool.noConfusion hsent, fun hd => ?_⟩
      obtain ⟨b, answer, hcall, hlog⟩ := hd.exists_call
      have hsome := ha.known b answer hcall _ hlog
      simp [Log.start, hnone] at hsome
    · rw [Outbox.slot?_put_of_ne heq] at hs
      exact ha.marked other s hs

theorem Accounted.record (ha : h.Accounted) (c : Collector σ) (key : TestKey)
    (m : Metric) (now : Timestamp) : (h.perform c (.record key m now)).Accounted := by
  have hown : ((h.outbox.slot? key).getD ⟨Log.start key now, false⟩).log.key = key := by
    cases hs : h.outbox.slot? key with
    | none => rfl
    | some s => exact ha.filed.key_eq hs
  cases hadd : ((h.outbox.slot? key).getD ⟨Log.start key now, false⟩).log.add m with
  | ok log =>
      have hrec : h.outbox.record key m now =
          (.ok (), h.outbox.put key ⟨log, false⟩) := by
        simp [Outbox.record, hadd]
      simp only [perform, hrec]
      exact ha.renew ((Log.key_of_add hadd).trans hown)
  | error e =>
      have hrec : h.outbox.record key m now = (.error e, h.outbox.put key
          ((h.outbox.slot? key).getD ⟨Log.start key now, false⟩)) := by
        simp [Outbox.record, hadd]
      simp only [perform, hrec]
      cases hs : h.outbox.slot? key with
      | none => exact ha.insert now hs
      | some s =>
          have hsame : h.outbox.put key s = h.outbox := by
            unfold Outbox.put
            rw [ha.filed.sorted.put_of_find? hs]
          simpa [hsame] using ha

theorem Accounted.flush (ha : h.Accounted) (c : Collector σ) (stamp : Stamp) :
    (h.perform c (.flush stamp)).Accounted := by
  by_cases hne : h.outbox.unsent = []
  · simpa [perform, Outbox.flush_logged_of_nil c stamp h.store hne] using ha
  · obtain ⟨b, answer, t, result, o', hflush, -, hfiled, hand⟩ :=
      Outbox.flush_logged ha.filed c stamp h.store hne
    have hknown : ∀ b' answer',
        .called (b', answer') ∈ h.incidents ++ [.called (b, answer)] →
          ∀ log ∈ b'.logs, (h.outbox.slot? log.key).isSome := by
      intro b' answer' hcall log hlog
      rcases List.mem_append.1 hcall with hcall | hcall
      · exact ha.known b' answer' hcall log hlog
      · cases List.mem_singleton.1 hcall
        obtain ⟨key, s, hs, -, rfl⟩ := (hand.unsent log).1 hlog
        rw [ha.filed.key_eq hs, hs]
        rfl
    simp only [perform, hflush, List.map_cons, List.map_nil]
    cases answer with
    | error e =>
        have hsame : o' = h.outbox := hand.unchanged ⟨_, hand.refused e rfl⟩
        subst hsame
        refine ⟨ha.filed, hknown, ?_⟩
        intro key s hs
        rw [delivered_append_refused]
        exact ha.marked key s hs
    | ok a =>
        have hslots := (hand.accepted a rfl).2
        refine ⟨hfiled, ?_, ?_⟩
        · intro b' answer' hcall log hlog
          rw [hslots, Option.isSome_map]
          exact hknown b' answer' hcall log hlog
        · intro key s hs
          rw [hslots] at hs
          obtain ⟨s', hs', rfl⟩ := Option.map_eq_some_iff.1 hs
          rw [delivered_append_accepted]
          refine ⟨fun _ => ?_, fun _ => rfl⟩
          cases hsent : s'.sent with
          | false => exact Or.inl ((hand.unsent _).2 ⟨key, s', hs', hsent, rfl⟩)
          | true => exact Or.inr ((ha.marked key s' hs').1 hsent)

theorem Accounted.perform (ha : h.Accounted) (c : Collector σ) (op : Operation) :
    (h.perform c op).Accounted := by
  cases op with
  | beginTest key now => exact ha.renew rfl
  | record key m now => exact ha.record c key m now
  | submit log => exact ha.renew rfl
  | flush stamp => exact ha.flush c stamp

theorem Accounted.run (ha : h.Accounted) (c : Collector σ) (ops : List Operation) :
    (h.run c ops).Accounted := by
  induction ops generalizing h with
  | nil => exact ha
  | cons op rest ih => exact ih (ha.perform c op)

/-! ## Operations on other logs -/

theorem outbox_perform_record (c : Collector σ) (h : History σ) (key : TestKey) (m : Metric)
    (now : Timestamp) :
    (h.perform c (.record key m now)).outbox = (h.outbox.record key m now).2 := by
  simp only [perform]
  cases h.outbox.record key m now with
  | mk answer o => cases answer <;> rfl

/-- An operation leaves the logs alone that it is not about. -/
theorem log?_perform_of_ne (c : Collector σ) (h : History σ) {op : Operation} {key : TestKey}
    (hne : op.key? ≠ some key) :
    (h.perform c op).outbox.log? key = h.outbox.log? key := by
  cases op with
  | beginTest other now =>
      apply Outbox.log?_put_of_ne
      exact fun heq => hne (congrArg some heq.symm)
  | record other m now =>
      obtain ⟨s, hput⟩ := h.outbox.exists_put_of_record other m now
      rw [outbox_perform_record, hput]
      apply Outbox.log?_put_of_ne
      exact fun heq => hne (congrArg some heq.symm)
  | submit log =>
      apply Outbox.log?_put_of_ne
      exact fun heq => hne (congrArg some heq.symm)
  | flush stamp => exact Outbox.log?_flush c.logged stamp (h.store, []) key

theorem log?_run_of_ne (c : Collector σ) (h : History σ) {ops : List Operation} {key : TestKey}
    (hne : ∀ op ∈ ops, op.key? ≠ some key) :
    (h.run c ops).outbox.log? key = h.outbox.log? key := by
  induction ops generalizing h with
  | nil => rfl
  | cons op rest ih =>
      have hrest := ih (h.perform c op) fun op' hop => hne op' (List.mem_cons_of_mem op hop)
      rw [log?_perform_of_ne c h (hne op List.mem_cons_self)] at hrest
      exact hrest

end History

/-- After any operations, with any collector: logs are under their own keys, a
flush with nothing unsent calls nobody and changes nothing, any other flush
hands over exactly the unsent logs in one batch and marks all or nothing, and a
mark means that the log was accepted since it was last renewed. -/
theorem delivery_law (c : Collector σ) (s : σ) (ops : List Operation) :
    let h := (History.start s).run c ops
    (∀ key slot, h.outbox.slot? key = some slot → slot.log.key = key) ∧
      (∀ stamp, (∀ key slot, h.outbox.slot? key = some slot → slot.sent = true) →
        h.outbox.flush c.logged stamp (h.store, []) =
            (.ok ⟨0, none, none⟩, h.outbox, h.store, []) ∧
          h.outbox.flush c stamp h.store =
            (.ok ⟨0, none, none⟩, h.outbox, h.store)) ∧
      (∀ stamp key slot, h.outbox.slot? key = some slot → slot.sent = false →
        ∃ b answer t result o',
          h.outbox.flush c.logged stamp (h.store, []) =
              (result, o', t, [(b, answer)]) ∧
            h.outbox.flush c stamp h.store = (result, o', t) ∧
              Handover h.outbox b answer result o') ∧
      (∀ key slot, h.outbox.slot? key = some slot →
        (slot.sent = true ↔ Delivered key slot.log h.incidents)) := by
  intro h
  have ha : h.Accounted := (History.accounted_start s).run c ops
  refine ⟨fun _ _ => ha.filed.key_eq, ?_, ?_, ha.marked⟩
  · intro stamp hsent
    have hnil : h.outbox.unsent = [] := by
      apply List.eq_nil_iff_forall_not_mem.2
      intro log hlog
      obtain ⟨key, slot, hs, hfalse, -⟩ := ha.filed.mem_unsent.1 hlog
      rw [hsent key slot hs] at hfalse
      cases hfalse
    exact ⟨Outbox.flush_of_nil c.logged stamp (h.store, []) hnil,
      Outbox.flush_of_nil c stamp h.store hnil⟩
  · intro stamp key slot hs hfalse
    have hne : h.outbox.unsent ≠ [] :=
      List.ne_nil_of_mem (ha.filed.mem_unsent.2 ⟨key, slot, hs, hfalse, rfl⟩)
    obtain ⟨b, answer, t, result, o', hlogged, hflush, -, hand⟩ :=
      Outbox.flush_logged ha.filed c stamp h.store hne
    exact ⟨b, answer, t, result, o', hlogged, hflush, hand⟩

end Compliance.Report
