import Compliance.Proofs.Run.Logs
import Compliance.Proofs.Run.Outlets

/-!
# Delivering again

After its own flush a run may be told to deliver again, any number of times and
to any collectors.  The delivery always stands in one of three ways: nothing
was there to deliver, everything has been refused so far, or one batch with all
logs was accepted and nothing happens any more.
-/

namespace Compliance.Run

open Compliance.Check (Bench TestCase)
open Compliance.Device (Profile)
open Compliance.Report (Acceptance Batch Call Collector FlushReceipt Outbox ReportError Stamp)

variable {σ : Type}

/-- The directory that was noted has no influence on the rest. -/
theorem Delivery.afterFlush_noted (d : Delivery) (dir : Option String) (unsent : Nat)
    (flush : Except ReportError FlushReceipt) :
    ({ d with dir := dir } : Delivery).afterFlush unsent flush =
      { d.afterFlush unsent flush with dir := dir } := by
  unfold afterFlush
  split
  · split <;> rfl
  · rfl

/-! ## How a delivery stands -/

/-- A call whose batch was not accepted. -/
def IsRefusal (call : Call) : Prop :=
  ∃ e, call.2 = .error e

/-- How the delivery of an outbox stands after so many flushes, as its collectors
were called and as the last flush and the report tell it. -/
inductive Standing (waiting : Outbox) (dir : Option String) (flushes : Nat) :
    Except ReportError FlushReceipt → Outbox → Delivery → List Call → Prop where
  | idle (hnil : waiting.unsent = []) :
      Standing waiting dir flushes (.ok ⟨0, none, none⟩) waiting
        ⟨true, 0, 0, none, none, none, dir⟩ []
  | refused (hne : waiting.unsent ≠ []) {calls : List Call}
      (hcalls : ∀ call ∈ calls, IsRefusal call) (hlength : calls.length = flushes)
      (e : ReportError) :
      Standing waiting dir flushes (.error e) waiting
        ⟨false, 0, waiting.unsentCount, none, none, some e.message, dir⟩ calls
  | delivered (hne : waiting.unsent ≠ []) {refusals : List Call}
      (hcalls : ∀ call ∈ refusals, IsRefusal call) (hlength : refusals.length < flushes)
      {b : Batch} (hlogs : b.logs = waiting.unsent) (a : Acceptance)
      (receipt : FlushReceipt) :
      Standing waiting dir flushes (.ok receipt) waiting.markSent
        ⟨true, waiting.unsentCount, 0, some a.batchId, some a.location, none, dir⟩
        (refusals ++ [(b, .ok a)])

/-- A flush with something to send ends what has been refused so far, or is
refused as well. -/
theorem standing_flush {waiting : Outbox} (hne : waiting.unsent ≠ []) (previous : Delivery)
    {calls : List Call} (hcalls : ∀ call ∈ calls, IsRefusal call) (c : Collector σ)
    (stamp : Stamp) (s : σ) :
    let out := waiting.flush c.logged stamp (s, calls)
    Standing waiting previous.dir (calls.length + 1) out.1 out.2.1
      (previous.afterFlush out.2.1.unsentCount out.1) out.2.2.2 := by
  let b := Batch.assemble stamp.batchId stamp.now waiting.unsent
  cases hc : c.accept b s with
  | mk answer t =>
      have hlogged : c.logged.accept b (s, calls) = (answer, t, calls ++ [(b, answer)]) := by
        simp [Collector.logged, hc]
      cases answer with
      | error e =>
          rw [Outbox.flush_of_error c.logged stamp (s, calls) hne hlogged]
          refine .refused hne ?_ (by simp) (.transport e)
          intro call hcall
          rcases List.mem_append.1 hcall with hcall | hcall
          · exact hcalls call hcall
          · rw [List.mem_singleton.1 hcall]
            exact ⟨e, rfl⟩
      | ok a =>
          rw [Outbox.flush_of_ok c.logged stamp (s, calls) hne hlogged]
          have hsent : waiting.unsent.length ≠ 0 := fun h => hne (List.length_eq_zero_iff.1 h)
          have hreport : previous.afterFlush waiting.markSent.unsentCount
              (.ok ⟨waiting.unsent.length, some a.batchId, some a.location⟩) =
                ⟨true, waiting.unsentCount, 0, some a.batchId, some a.location, none,
                  previous.dir⟩ := by
            simp [Delivery.afterFlush, hsent, Outbox.unsentCount]
          simp only [hreport]
          exact .delivered hne hcalls (Nat.lt_succ_self _) rfl a _

/-- The first flush sends everything that waits, if anything does. -/
theorem standing_first (waiting : Outbox) (dir : Option String) (c : Collector σ)
    (stamp : Stamp) (s : σ) :
    let out := waiting.flush c.logged stamp (s, [])
    Standing waiting dir 1 out.1 out.2.1
      { Delivery.none.afterFlush out.2.1.unsentCount out.1 with dir := dir } out.2.2.2 := by
  by_cases hne : waiting.unsent = []
  · rw [Outbox.flush_of_nil c.logged stamp (s, []) hne]
    simp only [Outbox.unsentCount, hne, List.length_nil]
    exact .idle hne
  · have hnone : ∀ call ∈ ([] : List Call), IsRefusal call := by simp
    have hstanding := standing_flush hne { Delivery.none with dir := dir } hnone c stamp s
    simp only [Delivery.afterFlush_noted] at hstanding
    exact hstanding

namespace Standing

variable {waiting box : Outbox} {dir : Option String} {flushes : Nat}
  {answer : Except ReportError FlushReceipt} {report : Delivery} {calls : List Call}

/-- A delivery that is over stays as it is, and the collector is not called. -/
theorem flush_of_ok (h : Standing waiting dir flushes answer box report calls)
    {receipt : FlushReceipt} (hok : answer = .ok receipt) {τ : Type} (c : Collector τ)
    (stamp : Stamp) (t : τ) :
    box.flush c stamp t = (.ok ⟨0, none, none⟩, box, t) ∧
      report.afterFlush box.unsentCount (.ok ⟨0, none, none⟩) = report := by
  cases h with
  | idle hnil =>
      refine ⟨Outbox.flush_of_nil c stamp t hnil, ?_⟩
      simp [Delivery.afterFlush, Outbox.unsentCount, hnil]
  | refused => cases hok
  | delivered =>
      refine ⟨Outbox.flush_of_nil c stamp t waiting.unsent_markSent, ?_⟩
      simp [Delivery.afterFlush, Outbox.unsentCount]

theorem flush (h : Standing waiting dir flushes answer box report calls) (c : Collector σ)
    (stamp : Stamp) (s : σ) :
    let out := box.flush c.logged stamp (s, calls)
    Standing waiting dir (flushes + 1) out.1 out.2.1
      (report.afterFlush out.2.1.unsentCount out.1) out.2.2.2 := by
  cases answer with
  | ok receipt =>
      obtain ⟨hflush, hreport⟩ := h.flush_of_ok rfl c.logged stamp (s, calls)
      simp only [hflush, hreport]
      cases h with
      | idle hnil => exact .idle hnil
      | delivered hne hcalls hlength hlogs a =>
          exact .delivered hne hcalls (Nat.lt_succ_of_lt hlength) hlogs a _
  | error e =>
      cases h with
      | refused hne hcalls hlength =>
          rw [← hlength]
          exact standing_flush hne
            ⟨false, 0, waiting.unsentCount, none, none, some e.message, dir⟩ hcalls c stamp s

/-- The report tells what waits and whether the last flush failed. -/
theorem report_agrees (h : Standing waiting dir flushes answer box report calls) :
    report.pending = box.unsentCount ∧
      (report.flushed = true ↔ report.pending = 0) ∧
      (report.flushed = true ↔ report.error = none) ∧
      (report.flushed = true ↔ ∃ receipt, answer = .ok receipt) := by
  cases h with
  | idle hnil => simp [Outbox.unsentCount, hnil]
  | refused hne => simp [Outbox.unsentCount, hne]
  | delivered => simp [Outbox.unsentCount]

theorem logs_eq (h : Standing waiting dir flushes answer box report calls) :
    box.logs = waiting.logs := by
  cases h with
  | idle | refused => rfl
  | delivered => exact waiting.logs_markSent

/-- A delivery that is over left nothing behind. -/
theorem accepted_of_ok (h : Standing waiting dir flushes answer box report calls)
    {receipt : FlushReceipt} (hok : answer = .ok receipt)
    (hall : waiting.unsent = waiting.logs) :
    box.unsent = [] ∧ ∀ log ∈ box.logs, ∃ b a, (b, .ok a) ∈ calls ∧ log ∈ b.logs := by
  have hlogs := h.logs_eq
  cases h with
  | idle hnil =>
      rw [hnil] at hall
      exact ⟨hnil, by simp [← hall]⟩
  | refused => cases hok
  | delivered hne hcalls hlength hbatch a =>
      refine ⟨waiting.unsent_markSent, fun log hlog => ?_⟩
      rw [hlogs, ← hall, ← hbatch] at hlog
      exact ⟨_, a, by simp, hlog⟩

/-- A delivery that the first flush brought to its end made one call, if it had
anything to send. -/
theorem of_first_ok (h : Standing waiting dir 1 answer box report calls)
    {receipt : FlushReceipt} (hok : answer = .ok receipt) :
    report.logsSent = waiting.unsent.length ∧
      (calls = [] ∧ waiting.unsent = [] ∨
        ∃ b a, calls = [(b, .ok a)] ∧ b.logs = waiting.unsent ∧ b.logs ≠ []) := by
  cases h with
  | idle hnil => exact ⟨by rw [hnil]; rfl, Or.inl ⟨rfl, hnil⟩⟩
  | refused => cases hok
  | delivered hne hcalls hlength hlogs a =>
      have hfirst := List.length_eq_zero_iff.1 (Nat.lt_one_iff.1 hlength)
      subst hfirst
      exact ⟨rfl, Or.inr ⟨_, a, rfl, hlogs, hlogs.symm ▸ hne⟩⟩

end Standing

/-! ## Runs with retries -/

/-- A collector to deliver to, and the id that a batch for it gets. -/
structure Retry (σ : Type) where
  collector : Collector σ
  batchId : String

def Retry.logged (r : Retry σ) : Retry (σ × List Call) :=
  ⟨r.collector.logged, r.batchId⟩

/-- A run with the answer of its last flush. -/
structure Sequel (σ : Type) where
  answer : Except ReportError FlushReceipt
  run : SuiteRun σ

namespace Sequel

def retry (q : Sequel σ) (r : Retry σ) : Sequel σ :=
  ⟨(q.run.retryFlush r.collector r.batchId).1, (q.run.retryFlush r.collector r.batchId).2⟩

def mapStore {τ : Type} (f : σ → τ) (q : Sequel σ) : Sequel τ :=
  ⟨q.answer, q.run.summary, q.run.progress.mapStore f⟩

theorem retry_logged (q : Sequel (σ × List Call)) (r : Retry σ) :
    (q.retry r.logged).mapStore Prod.fst = (q.mapStore Prod.fst).retry r := by
  have hflush := flush_logged q.run.progress.outbox r.collector
    ⟨r.batchId, q.run.progress.now⟩ q.run.progress.store
  unfold retry SuiteRun.retryFlush
  simp only [mapStore, Progress.mapStore, Progress.now, Retry.logged] at hflush ⊢
  rw [hflush]

theorem calls_retry (q : Sequel (σ × List Call)) (r : Retry σ) :
    q.run.progress.store.2 <+: (q.retry r.logged).run.progress.store.2 := by
  let stamp : Stamp := ⟨r.batchId, q.run.progress.now⟩
  show q.run.progress.store.2 <+:
    (q.run.progress.outbox.flush r.collector.logged stamp q.run.progress.store).2.2.2
  by_cases hnil : q.run.progress.outbox.unsent = []
  · rw [Outbox.flush_of_nil _ _ _ hnil]
  · rw [Outbox.store_flush _ _ _ hnil]
    exact List.prefix_append ..

/-- How a run stands after so many flushes and the calls that came of them. -/
structure Stands (waiting : Outbox) (m : Summary) (dir : Option String) (flushes : Nat)
    (q : Sequel σ) (calls : List Call) : Prop where
  summary : q.run.summary = m.withReport q.run.summary.report
  standing : Standing waiting dir flushes q.answer q.run.progress.outbox
    q.run.summary.report calls

variable {waiting : Outbox} {m : Summary} {dir : Option String} {flushes : Nat}

theorem Stands.retry {q : Sequel (σ × List Call)}
    (h : q.Stands waiting m dir flushes q.run.progress.store.2) (r : Retry σ) :
    (q.retry r.logged).Stands waiting m dir (flushes + 1)
      (q.retry r.logged).run.progress.store.2 := by
  constructor
  · have hreport := h.summary
    unfold Sequel.retry SuiteRun.retryFlush
    simp only
    rw [hreport]
    rfl
  · exact h.standing.flush r.collector ⟨r.batchId, q.run.progress.now⟩
      q.run.progress.store.1

/-- After everything was delivered, a retry has nothing to do. -/
theorem Stands.retry_of_ok {q : Sequel σ} {calls : List Call}
    (h : q.Stands waiting m dir flushes calls) {receipt : FlushReceipt}
    (hok : q.answer = .ok receipt) (c : Collector σ) (batchId : String) :
    q.run.retryFlush c batchId = (.ok ⟨0, none, none⟩, q.run) := by
  obtain ⟨hflush, hreport⟩ := h.standing.flush_of_ok hok c
    ⟨batchId, q.run.progress.now⟩ q.run.progress.store
  have hsummary : q.run.summary.withReport q.run.summary.report = q.run.summary := by
    rw [h.summary]
    rfl
  simp only [SuiteRun.retryFlush, hflush, hreport, hsummary]

end Sequel

section Suite

variable (o : Outlets σ) (plan : Plan) (device : Profile) (n : Naming)
  (cases : List TestCase) (b : Bench) (s : σ) (dir : Option String)

/-- The summary before anything is known of the delivery. -/
def opening : Summary :=
  let bench := (reporting o plan device n cases b s).bench
  .ofResults ⟨n.suiteId, plan.suiteName, plan.abi⟩ (casesRun o plan device n cases b s).1
    bench.token.isCancelled (bench.clock - b.clock) bench.now

theorem opening_eq {τ : Type} (o' : Outlets τ) (s' : τ) :
    opening o' plan device n cases b s' = opening o plan device n cases b s := by
  unfold opening
  rw [results_casesRun o o' plan device n cases b s s',
    bench_reporting o o' plan device n cases b s s']

theorem summary_eq_opening : (runSuite o plan device n cases b s).summary =
    (opening o plan device n cases b s).withReport
      (Delivery.none.afterFlush (finalFlush o plan device n cases b s).2.1.unsentCount
        (finalFlush o plan device n cases b s).1) := by
  rw [summary_runSuite, Progress.now, bench_runSuite]
  rfl

/-- A run after its own flush.  The directory it delivers to may be noted. -/
def Sequel.start : Sequel σ :=
  let run := runSuite o plan device n cases b s
  let report := { run.summary.report with dir := dir }
  ⟨(finalFlush o plan device n cases b s).1,
    { run with summary := { run.summary with report := report } }⟩

/-- A run after retries. -/
def Sequel.after (retries : List (Retry σ)) : Sequel σ :=
  retries.foldl Sequel.retry (Sequel.start o plan device n cases b s dir)

/-- The calls of collectors in a run and its retries. -/
def callsAfter (retries : List (Retry σ)) : List Call :=
  (Sequel.after o.logged plan device n cases b (s, []) dir
    (retries.map Retry.logged)).run.progress.store.2

theorem Outlets.respects_calls (o : Outlets σ) :
    o.logged.Respects fun s t => s.2 = t.2 where
  refl _ := rfl
  trans := Eq.trans
  record _ _ := rfl

theorem finalFlush_logged :
    finalFlush o plan device n cases b s =
      ((finalFlush o.logged plan device n cases b (s, [])).1,
        (finalFlush o.logged plan device n cases b (s, [])).2.1,
        (finalFlush o.logged plan device n cases b (s, [])).2.2.1) := by
  have hreporting := o.recordsAs_logged.reporting plan device n cases b (s, [])
  unfold finalFlush
  rw [hreporting]
  exact flush_logged ..

theorem progress_logged :
    (runSuite o.logged plan device n cases b (s, [])).progress.mapStore Prod.fst =
      (runSuite o plan device n cases b s).progress := by
  have hrecords := o.recordsAs_logged
  have hreporting : reporting o plan device n cases b s =
      (reporting o.logged plan device n cases b (s, [])).mapStore Prod.fst :=
    hrecords.reporting plan device n cases b (s, [])
  rw [progress_runSuite, progress_runSuite, ← hrecords.advance, hreporting,
    finalFlush_logged o plan device n cases b s]
  rfl

theorem summary_logged :
    (runSuite o.logged plan device n cases b (s, [])).summary =
      (runSuite o plan device n cases b s).summary := by
  rw [summary_eq_opening, summary_eq_opening, opening_eq o plan device n cases b s o.logged,
    finalFlush_logged o plan device n cases b s]

theorem start_logged :
    (Sequel.start o.logged plan device n cases b (s, []) dir).mapStore Prod.fst =
      Sequel.start o plan device n cases b s dir := by
  unfold Sequel.start Sequel.mapStore
  simp only [summary_logged, progress_logged, finalFlush_logged o plan device n cases b s]

theorem after_logged (retries : List (Retry σ)) :
    (Sequel.after o.logged plan device n cases b (s, []) dir
      (retries.map Retry.logged)).mapStore Prod.fst =
        Sequel.after o plan device n cases b s dir retries := by
  have hfoldl (q : Sequel (σ × List Call)) :
      ((retries.map Retry.logged).foldl Sequel.retry q).mapStore Prod.fst =
        retries.foldl Sequel.retry (q.mapStore Prod.fst) := by
    induction retries generalizing q with
    | nil => rfl
    | cons r rest ih =>
        rw [List.map_cons, List.foldl_cons, List.foldl_cons, ih, Sequel.retry_logged]
  rw [Sequel.after, hfoldl, start_logged]
  rfl

/-! ## The whole sequel -/

theorem flush_logged_reporting :
    let p := reporting o.logged plan device n cases b (s, [])
    finalFlush o.logged plan device n cases b (s, []) =
      p.outbox.flush o.collector.logged ⟨n.batchId, p.now⟩ (p.store.1, []) := by
  have hempty : [] = (reporting o.logged plan device n cases b (s, [])).store.2 :=
    o.respects_calls.reporting (s := (s, []))
  unfold finalFlush
  generalize reporting o.logged plan device n cases b (s, []) = p at hempty
  rw [hempty]
  rfl

theorem calls_start : (finalFlush o.logged plan device n cases b (s, [])).2.2.2 =
    (Sequel.start o.logged plan device n cases b (s, []) dir).run.progress.store.2 :=
  o.respects_calls.runSuite

theorem outbox_reporting_logged :
    (reporting o.logged plan device n cases b (s, [])).outbox =
      (reporting o plan device n cases b s).outbox :=
  (congrArg Progress.outbox (o.recordsAs_logged.reporting plan device n cases b (s, []))).symm

/-- A run makes one call with everything that waits, if anything does. -/
theorem logs_callsAfter_nil :
    (callsAfter o plan device n cases b s dir []).map (·.1.logs) =
      if (reporting o plan device n cases b s).outbox.unsent = [] then []
      else [(reporting o plan device n cases b s).outbox.unsent] := by
  have hcalls : callsAfter o plan device n cases b s dir [] =
      (finalFlush o.logged plan device n cases b (s, [])).2.2.2 :=
    (calls_start o plan device n cases b s dir).symm
  rw [hcalls, flush_logged_reporting, ← outbox_reporting_logged o plan device n cases b s]
  split
  · rename_i hnil
    rw [Outbox.flush_of_nil _ _ _ hnil]
    rfl
  · rename_i hne
    rw [Outbox.store_flush _ _ _ hne]
    rfl

theorem stands_start :
    (Sequel.start o.logged plan device n cases b (s, []) dir).Stands
      (reporting o plan device n cases b s).outbox (opening o plan device n cases b s) dir 1
      (Sequel.start o.logged plan device n cases b (s, []) dir).run.progress.store.2 := by
  have hsummary := summary_eq_opening o.logged plan device n cases b (s, [])
  have hopening := opening_eq o plan device n cases b s o.logged (s, [])
  rw [hopening] at hsummary
  constructor
  · simp only [Sequel.start, hsummary]
    rfl
  · rw [← outbox_reporting_logged, ← calls_start]
    simp only [Sequel.start, hsummary, outbox_runSuite, flush_logged_reporting]
    exact standing_first ..

theorem stands_foldl {waiting : Outbox} {m : Summary} {flushes : Nat}
    {q : Sequel (σ × List Call)}
    (h : q.Stands waiting m dir flushes q.run.progress.store.2) (retries : List (Retry σ)) :
    let out := (retries.map Retry.logged).foldl Sequel.retry q
    out.Stands waiting m dir (flushes + retries.length) out.run.progress.store.2 := by
  induction retries generalizing flushes q with
  | nil => exact h
  | cons r rest ih =>
      rw [List.length_cons, Nat.add_comm rest.length 1, ← Nat.add_assoc]
      exact ih (h.retry r)

/-- However often a run is told to deliver again, its summary is that of its
results and of how its delivery stands. -/
theorem stands_after (retries : List (Retry σ)) :
    (Sequel.after o plan device n cases b s dir retries).Stands
      (reporting o plan device n cases b s).outbox (opening o plan device n cases b s) dir
      (retries.length + 1) (callsAfter o plan device n cases b s dir retries) := by
  have hlogged := stands_foldl dir (stands_start o plan device n cases b s dir) retries
  rw [Nat.add_comm] at hlogged
  rw [← after_logged]
  exact ⟨hlogged.summary, hlogged.standing⟩

theorem callsAfter_grows (retries more : List (Retry σ)) :
    callsAfter o plan device n cases b s dir retries <+:
      callsAfter o plan device n cases b s dir (retries ++ more) := by
  have hfoldl (q : Sequel (σ × List Call)) : q.run.progress.store.2 <+:
      ((more.map Retry.logged).foldl Sequel.retry q).run.progress.store.2 := by
    induction more generalizing q with
    | nil => exact List.prefix_refl _
    | cons r rest ih => exact (q.calls_retry r).trans (ih (q.retry r.logged))
  unfold callsAfter Sequel.after
  rw [List.map_append, List.foldl_append]
  exact hfoldl _

end Suite

end Compliance.Run
