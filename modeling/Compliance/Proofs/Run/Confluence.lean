import Compliance.Check.Scripted
import Compliance.Proofs.Run.Retries

/-!
# Delivering late comes to the same

A run whose reports are refused for a while and then accepted ends as if they
had been accepted at once.  One batch is delivered, and only where it went may
be different.
-/

namespace Compliance.Run

open Compliance.Check (Bench TestCase)
open Compliance.Device (Profile)
open Compliance.Report (Batch Call Collector FlushReceipt Mailbox Outbox ReportError Stamp)

variable {σ τ : Type}

/-- Exactly so many calls are refused before the others are accepted. -/
def RefusedFirst (k : Nat) (calls : List Call) : Prop :=
  ∀ i call, calls[i]? = some call → (IsRefusal call ↔ i < k)

theorem RefusedFirst.of_start {k : Nat} {calls calls' : List Call} (h : RefusedFirst k calls)
    (hstart : calls' <+: calls) : RefusedFirst k calls' := by
  obtain ⟨more, rfl⟩ := hstart
  intro i call hi
  obtain ⟨hlt, -⟩ := List.getElem?_eq_some_iff.1 hi
  exact h i call ((List.getElem?_append_left hlt).trans hi)

theorem RefusedFirst.append {k : Nat} {calls : List Call} (h : RefusedFirst k calls)
    {call : Call} (hcall : IsRefusal call ↔ calls.length < k) :
    RefusedFirst k (calls ++ [call]) := by
  intro i other hi
  rcases Nat.lt_trichotomy i calls.length with hlt | rfl | hgt
  · exact h i other ((List.getElem?_append_left hlt).symm.trans hi)
  · cases List.getElem?_concat_length.symm.trans hi
    exact hcall
  · have hnone : (calls ++ [call])[i]? = none :=
      List.getElem?_eq_none (by simpa using hgt)
    cases hnone.symm.trans hi

/-- The batches that were accepted. -/
def accepted (calls : List Call) : List Batch :=
  calls.filterMap fun call => if call.2.isOk then some call.1 else none

theorem accepted_of_refusals {calls : List Call} (h : ∀ call ∈ calls, IsRefusal call) :
    accepted calls = [] := by
  apply List.filterMap_eq_nil_iff.2
  intro call hcall
  obtain ⟨e, he⟩ := h call hcall
  simp [he, Except.isOk, Except.toBool]

/-- What is known of a delivery but for where its batch went. -/
def Delivery.unplaced (d : Delivery) : Delivery :=
  { d with batchId := .none, location := .none }

def Summary.unplaced (m : Summary) : Summary :=
  { m with report := m.report.unplaced }

theorem Summary.unplaced_withReport (m : Summary) (d : Delivery) :
    (m.withReport d).unplaced = m.withReport d.unplaced := rfl

namespace Standing

variable {waiting box : Outbox} {dir : Option String} {flushes k : Nat}
  {answer : Except ReportError FlushReceipt} {report : Delivery} {calls : List Call}

/-- As long as calls are refused, the flushes fail. -/
theorem error_of_le (h : Standing waiting dir flushes answer box report calls)
    (hk : RefusedFirst k calls) (hle : flushes ≤ k) (hne : waiting.unsent ≠ []) :
    ∃ e, answer = .error e := by
  cases h with
  | idle hnil => exact absurd hnil hne
  | refused hne hcalls hlength e => exact ⟨e, rfl⟩
  | delivered hne hcalls hlength hlogs a =>
      have hlast := (hk _ _ List.getElem?_concat_length).2 (lt_of_lt_of_le hlength hle)
      obtain ⟨e, he⟩ := hlast
      cases he

theorem ok_of_lt (h : Standing waiting dir flushes answer box report calls)
    (hk : RefusedFirst k calls) (hlt : k < flushes) : ∃ receipt, answer = .ok receipt := by
  cases h with
  | idle => exact ⟨_, rfl⟩
  | refused hne hcalls hlength e =>
      rw [← hlength] at hlt
      have hcall := hcalls _ (List.getElem_mem hlt)
      exact absurd ((hk k _ (List.getElem?_eq_getElem hlt)).1 hcall) (Nat.lt_irrefl k)
  | delivered => exact ⟨_, rfl⟩

/-- What is left by a delivery that is over does not depend on how long it
took. -/
theorem of_ok (h : Standing waiting dir flushes answer box report calls)
    {receipt : FlushReceipt} (hok : answer = .ok receipt) :
    report.unplaced = ⟨true, waiting.unsentCount, 0, none, none, none, dir⟩ ∧
      box = (if waiting.unsent = [] then waiting else waiting.markSent) ∧
      (accepted calls).map (·.logs) =
        if waiting.unsent = [] then [] else [waiting.unsent] := by
  cases h with
  | idle hnil => simp [hnil, Delivery.unplaced, Outbox.unsentCount, accepted]
  | refused => cases hok
  | delivered hne hcalls hlength hlogs a =>
      have hrefused := accepted_of_refusals hcalls
      unfold accepted at hrefused ⊢
      rw [List.filterMap_append, hrefused]
      simp [hne, hlogs, Delivery.unplaced, Except.isOk, Except.toBool]

end Standing

/-- Where a retry has nothing to do, any number of them have not. -/
theorem Sequel.run_foldl {q : Sequel σ}
    (h : ∀ c batchId, q.run.retryFlush c batchId = (.ok ⟨0, none, none⟩, q.run))
    (more : List (Retry σ)) : (more.foldl Sequel.retry q).run = q.run := by
  have hfoldl (q' : Sequel σ) (hq : q'.run = q.run) :
      (more.foldl Sequel.retry q').run = q.run := by
    induction more generalizing q' with
    | nil => exact hq
    | cons r rest ih =>
        apply ih
        rw [Sequel.retry, hq, h]
  exact hfoldl q rfl

section Suite

variable (o : Outlets σ) (plan : Plan) (device : Profile) (n : Naming)
  (cases : List TestCase) (b : Bench) (s : σ) (dir : Option String)

/-- When the last flush succeeded, nothing that comes after makes a difference. -/
theorem settled_after {retries : List (Retry σ)} {receipt : FlushReceipt}
    (hok : (Sequel.after o plan device n cases b s dir retries).answer = .ok receipt) :
    let q := Sequel.after o plan device n cases b s dir retries
    (∀ c batchId, q.run.retryFlush c batchId = (.ok ⟨0, none, none⟩, q.run)) ∧
      ∀ more, (Sequel.after o plan device n cases b s dir (retries ++ more)).run = q.run ∧
        callsAfter o plan device n cases b s dir (retries ++ more) =
          callsAfter o plan device n cases b s dir retries := by
  intro q
  have hstands := stands_after o plan device n cases b s dir retries
  have hsettled := hstands.retry_of_ok hok
  have hlogged := stands_foldl dir (stands_start o plan device n cases b s dir) retries
  have hanswer := congrArg Sequel.answer (after_logged o plan device n cases b s dir retries)
  refine ⟨hsettled, fun more => ⟨?_, ?_⟩⟩
  · unfold Sequel.after
    rw [List.foldl_append]
    exact Sequel.run_foldl hsettled more
  · have hrun := Sequel.run_foldl (hlogged.retry_of_ok (hanswer.trans hok))
      (more.map Retry.logged)
    unfold callsAfter Sequel.after
    rw [List.map_append, List.foldl_append, hrun]

end Suite

/-- A run that is refused for as long as it is told to deliver again, and then
accepted, ends like a run that is accepted at once: only the batch may have
gone elsewhere.  Until then the report tells that everything waits, and from
then on nothing changes any more. -/
theorem retries_confluent (o : Outlets σ) (o' : Outlets τ) (plan : Plan) (device : Profile)
    (n : Naming) (batchId : String) (cases : List TestCase) (b : Bench) (s : σ) (s' : τ)
    (dir : Option String) (retries : List (Retry σ))
    (hlate : RefusedFirst retries.length (callsAfter o plan device n cases b s dir retries))
    (hprompt : RefusedFirst 0
      (callsAfter o' plan device { n with batchId := batchId } cases b s' dir [])) :
    let late := Sequel.after o plan device n cases b s dir
    let prompt := Sequel.after o' plan device { n with batchId := batchId } cases b s' dir []
    let lateCalls := callsAfter o plan device n cases b s dir
    let promptCalls := callsAfter o' plan device { n with batchId := batchId } cases b s' dir []
    let box := prompt.run.progress.outbox
    let batches := if ∃ r ∈ prompt.run.summary.results, 0 < r.metrics then [box.logs] else []
    ((late retries).run.summary.unplaced = prompt.run.summary.unplaced ∧
      (late retries).run.progress.outbox = box ∧ box.unsent = []) ∧
    ((accepted (lateCalls retries)).map (·.logs) = batches ∧
      (accepted promptCalls).map (·.logs) = batches) ∧
    (∀ j, j < retries.length → (∃ r ∈ prompt.run.summary.results, 0 < r.metrics) →
      let q := late (retries.take j)
      (∃ e, q.answer = .error e) ∧ q.run.summary.report.flushed = false ∧
        q.run.summary.report.pending = q.run.progress.outbox.unsentCount ∧
        q.run.summary.report.error.isSome = true) ∧
    (∀ c id, (late retries).run.retryFlush c id =
      (.ok ⟨0, none, none⟩, (late retries).run)) ∧
    ∀ more, (late (retries ++ more)).run = (late retries).run ∧
      lateCalls (retries ++ more) = lateCalls retries := by
  intro late prompt lateCalls promptCalls box batches
  have hstands := stands_after o plan device n cases b s dir retries
  have hstands' : prompt.Stands (reporting o plan device n cases b s).outbox
      (opening o plan device n cases b s) dir 1 promptCalls := by
    rw [← outbox_reporting o o' plan device n cases b s s',
      ← opening_eq o plan device n cases b s o' s']
    exact stands_after o' plan device { n with batchId := batchId } cases b s' dir []
  have hreported := reported_reporting o plan device n cases b s
  have hresults : prompt.run.summary.results = (casesRun o plan device n cases b s).1 :=
    congrArg Summary.results hstands'.summary
  have hmetrics : (∃ r ∈ prompt.run.summary.results, 0 < r.metrics) ↔
      (reporting o plan device n cases b s).outbox.unsent ≠ [] := by
    rw [hresults, ne_eq, hreported.unsent_eq_nil]
    simp [Nat.pos_iff_ne_zero]
  obtain ⟨receipt, hok⟩ := hstands.standing.ok_of_lt hlate (Nat.lt_succ_self _)
  obtain ⟨receipt', hok'⟩ := hstands'.standing.ok_of_lt hprompt Nat.one_pos
  obtain ⟨hreport, hbox, haccepted⟩ := hstands.standing.of_ok hok
  obtain ⟨hreport', hbox', haccepted'⟩ := hstands'.standing.of_ok hok'
  have hunsent := Outbox.unsent_of_waiting hreported.waiting
  obtain ⟨hsent, -⟩ := hstands'.standing.accepted_of_ok hok' hunsent
  have hbatches : batches = if (reporting o plan device n cases b s).outbox.unsent = [] then []
      else [(reporting o plan device n cases b s).outbox.unsent] := by
    simp only [batches, hmetrics, ite_not, box, hstands'.standing.logs_eq, hunsent]
  obtain ⟨hsettled, hmore⟩ := settled_after o plan device n cases b s dir hok
  refine ⟨⟨?_, hbox.trans hbox'.symm, hsent⟩, ⟨?_, ?_⟩, ?_, hsettled, hmore⟩
  · rw [hstands.summary, hstands'.summary, Summary.unplaced_withReport,
      Summary.unplaced_withReport, hreport, hreport']
  · rw [hbatches, haccepted]
  · rw [hbatches, haccepted']
  · intro j hj hsome q
    have hearly := stands_after o plan device n cases b s dir (retries.take j)
    have hlength : (retries.take j).length + 1 ≤ retries.length := by
      rw [List.length_take, Nat.min_eq_left hj.le]
      exact hj
    have hcalls : RefusedFirst retries.length
        (callsAfter o plan device n cases b s dir (retries.take j)) := by
      apply hlate.of_start
      have hstart := callsAfter_grows o plan device n cases b s dir (retries.take j)
        (retries.drop j)
      rwa [List.take_append_drop] at hstart
    obtain ⟨e, he⟩ := hearly.standing.error_of_le hcalls hlength (hmetrics.1 hsome)
    obtain ⟨hpending, -, herror, hanswer⟩ := hearly.standing.report_agrees
    have hflushed : q.run.summary.report.flushed = false := by
      rw [← Bool.not_eq_true, hanswer]
      rintro ⟨receipt, hreceipt⟩
      cases he.symm.trans hreceipt
    refine ⟨⟨e, he⟩, hflushed, hpending, ?_⟩
    rw [← Bool.not_eq_true] at hflushed
    exact Option.ne_none_iff_isSome.1 fun hnone => hflushed (herror.2 hnone)

/-! ## A mailbox that fails for a while -/

/-- The mailbox refuses what is left of the first batches. -/
def Pledged (k : Nat) (s : Mailbox × List Call) : Prop :=
  RefusedFirst k s.2 ∧ s.1.failures = k - s.2.length

theorem Pledged.flush {k : Nat} {s : Mailbox × List Call} (h : Pledged k s) (box : Outbox)
    (stamp : Stamp) : Pledged k (box.flush Collector.inMemory.logged stamp s).2.2 := by
  obtain ⟨hcalls, hfailures⟩ := h
  by_cases hnil : box.unsent = []
  · rw [Outbox.flush_of_nil _ _ _ hnil]
    exact ⟨hcalls, hfailures⟩
  · rw [Outbox.store_flush _ _ _ hnil]
    simp only [Collector.logged, Collector.inMemory, Mailbox.take]
    cases hleft : s.1.failures with
    | zero =>
        have hdone : ¬ s.2.length < k := by omega
        refine ⟨hcalls.append ?_, ?_⟩
        · simp [IsRefusal, hdone]
        · simp only [List.length_append, List.length_singleton]
          omega
    | succ left =>
        have hmore : s.2.length < k := by omega
        refine ⟨hcalls.append ?_, ?_⟩
        · simp [IsRefusal, hmore]
        · simp only [List.length_append, List.length_singleton]
          omega

/-- A mailbox that is told to fail refuses so many batches and takes the rest. -/
theorem refusedFirst_inMemory (k : Nat) (plan : Plan) (device : Profile) (n : Naming)
    (cases : List TestCase) (b : Bench) (dir : Option String) (ids : List String) :
    RefusedFirst k (callsAfter inMemory plan device n cases b (Mailbox.empty.failNext k) dir
      (ids.map fun id => ⟨Collector.inMemory, id⟩)) := by
  let s : Mailbox × List Call := (Mailbox.empty.failNext k, [])
  have hrespects : inMemory.logged.Respects Eq := ⟨fun _ => rfl, Eq.trans, fun _ _ => rfl⟩
  have hopened : Pledged k s := ⟨by simp [s, RefusedFirst], by simp [s, Mailbox.failNext]⟩
  have hreporting : Pledged k (reporting inMemory.logged plan device n cases b s).store := by
    rw [← hrespects.reporting]
    exact hopened
  have hrun : Pledged k (runSuite inMemory.logged plan device n cases b s).progress.store := by
    rw [← hrespects.runSuite]
    exact hreporting.flush _ _
  have hfoldl (q : Sequel (Mailbox × List Call)) (hq : Pledged k q.run.progress.store) :
      Pledged k ((ids.map fun id => (⟨Collector.inMemory, id⟩ : Retry Mailbox).logged).foldl
        Sequel.retry q).run.progress.store := by
    induction ids generalizing q with
    | nil => exact hq
    | cons id rest ih => exact ih _ (hq.flush _ _)
  have hfinal := hfoldl (Sequel.start inMemory.logged plan device n cases b s dir) hrun
  unfold callsAfter Sequel.after
  rw [List.map_map]
  exact hfinal.1

/-- Passes with one metric. -/
def measuring : TestCase :=
  (Check.Behavior.pass [("mtu", .ofNat 185)]).toCase ⟨"Link", "mtu", by decide, by decide⟩
    .empty

theorem metrics_measuring (m : Mailbox) :
    ∃ r ∈ (casesRun inMemory ⟨"cts", "arm64", .standard⟩ slowDevice.profile
      ⟨"suite", "first", 0⟩ [measuring] (benchAt 0 slowDevice) m).1, 0 < r.metrics := by
  rw [results_casesRun .none inMemory _ _ _ _ _ ()]
  decide +kernel

/-- Two batches are refused, and the third try delivers. -/
theorem retries_confluent_third_try :
    let plan : Plan := ⟨"cts", "arm64", .standard⟩
    let n : Naming := ⟨"suite", "first", 0⟩
    let again : List (Retry Mailbox) :=
      ["second", "third"].map fun id => ⟨Collector.inMemory, id⟩
    let late := Sequel.after inMemory plan slowDevice.profile n [measuring]
      (benchAt 0 slowDevice) (Mailbox.empty.failNext 2) (some "reports")
    let lateCalls := callsAfter inMemory plan slowDevice.profile n [measuring]
      (benchAt 0 slowDevice) (Mailbox.empty.failNext 2) (some "reports") again
    let prompt := Sequel.after inMemory plan slowDevice.profile { n with batchId := "only" }
      [measuring] (benchAt 0 slowDevice) (Mailbox.empty.failNext 0) (some "reports") []
    RefusedFirst 2 lateCalls ∧
      (late again).run.summary.unplaced = prompt.run.summary.unplaced ∧
      (accepted lateCalls).map (·.logs) = [prompt.run.progress.outbox.logs] ∧
      (late (again.take 1)).run.summary.report.flushed = false := by
  intro plan n again late lateCalls prompt
  have hlate : RefusedFirst 2 lateCalls :=
    refusedFirst_inMemory 2 plan slowDevice.profile n [measuring]
      (benchAt 0 slowDevice) (some "reports") ["second", "third"]
  have hprompt := refusedFirst_inMemory 0 plan slowDevice.profile { n with batchId := "only" }
    [measuring] (benchAt 0 slowDevice) (some "reports") []
  have hsome : ∃ r ∈ prompt.run.summary.results, 0 < r.metrics :=
    metrics_measuring (Mailbox.empty.failNext 0)
  obtain ⟨⟨hsummary, -, -⟩, ⟨haccepted, -⟩, hrefused, -, -⟩ :=
    retries_confluent inMemory inMemory plan slowDevice.profile n "only"
      [measuring] (benchAt 0 slowDevice) (Mailbox.empty.failNext 2) (Mailbox.empty.failNext 0)
      (some "reports") again hlate hprompt
  refine ⟨hlate, hsummary, haccepted.trans (if_pos hsome), ?_⟩
  exact (hrefused 1 (by decide) hsome).2.1

end Compliance.Run
