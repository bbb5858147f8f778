import Compliance.Proofs.Run.Midway
import Compliance.Proofs.Run.Retries

/-!
# Accounting for metrics

A result says how many metrics its test recorded, and the outbox holds them.
The two are written at different places, and agree through everything a test
may do.  What does not come to its execution records nothing.
-/

namespace Compliance.Run

open Compliance.Check (Bench TestCase)
open Compliance.Device (Profile)
open Compliance.Report (Metric Outbox TestKey)

variable {σ : Type}

/-! ## Results without metrics -/

section Case

variable (plan : Plan) (device : Profile) (index : Nat) (c : TestCase) (p : Progress σ)

theorem metrics_attempt_of_skipped
    (h : (attempt plan device index c p).1.status = .skipped) :
    (attempt plan device index c p).1.metrics = 0 := by
  have hcourse := attempt_course plan device index c p
  generalize attempt plan device index c p = out at h hcourse ⊢
  cases hcourse with
  | cancelled | lacking | refused | brokenDown => rfl
  | executed => exact absurd h (status_execute_ne_skipped plan c _ _)

theorem metrics_attempt_of_unexecuted (h : .execute ∉ phasesOn device c p.bench) :
    (attempt plan device index c p).1.metrics = 0 := by
  have hcourse := attempt_course plan device index c p
  generalize attempt plan device index c p = out at hcourse ⊢
  cases hcourse with
  | cancelled | lacking | refused | brokenDown => rfl
  | executed htoken hm b hp => simp [phasesOn, htoken, hm, hp] at h

theorem status_of_afterCleanup_skipped {start : Nat} {b : Bench} {r : TestResult}
    {panic? : Option Check.Panic}
    (h : (afterCleanup c start b r panic?).status = .skipped) : r.status = .skipped := by
  cases panic? with
  | none => exact h
  | some q =>
      simp only [afterCleanup] at h
      split at h
      · exact h
      · simp [TestResult.withMetrics, TestResult.failed, panicked,
          Check.FailureCause.isError] at h

variable (o : Outlets σ)

theorem metrics_runCase_of_skipped
    (h : (runCase o plan device index c p).1.status = .skipped) :
    (runCase o plan device index c p).1.metrics = 0 := by
  apply (metrics_afterCleanup ..).trans
  apply metrics_attempt_of_skipped
  exact status_of_afterCleanup_skipped c h

theorem metrics_runCase_of_unexecuted (h : .execute ∉ (turnOf device c p.bench).phases) :
    (runCase o plan device index c p).1.metrics = 0 := by
  apply (metrics_afterCleanup ..).trans
  exact metrics_attempt_of_unexecuted plan device index c _ h

end Case

/-! ## The whole run -/

/-- Results of tests and the logs of an outbox account for each other. -/
structure Accounted (abi : String) (ts : List Turn) (rs : List TestResult)
    (box : Outbox) : Prop where
  held : ∀ r ∈ rs, (box.log? (r.id.key abi)).isSome ↔ 0 < r.metrics
  complete : ∀ r ∈ rs, ∀ log ∈ box.log? (r.id.key abi), log.size = r.metrics
  tally : (box.logs.map fun log => (log.key, log.size)).Perm
    ((recordedIn rs).map (TestResult.entry abi))
  skipped : ∀ r ∈ rs, r.status = .skipped → r.metrics = 0
  unexecuted : ∀ (i : Nat) (t : Turn) (r : TestResult), ts[i]? = some t → rs[i]? = some r →
    .execute ∉ t.phases → r.metrics = 0
  cancelled : ∀ (i : Nat) (t : Turn) (r : TestResult), ts[i]? = some t → rs[i]? = some r →
    t.start.token.isCancelled = true → r.metrics = 0
  brokenDown : ∀ (i : Nat) (t : Turn) (r : TestResult), ts[i]? = some t → rs[i]? = some r →
    ∀ q, (t.testCase.prepare.run t.start).1 = .panicked q → r.metrics = 0

section Suite

variable (o : Outlets σ) (plan : Plan) (device : Profile) (n : Naming)
  (cases : List TestCase) (b : Bench) (s : σ)

theorem unexecuted_casesRun {i : Nat} {t : Turn} {r : TestResult}
    (ht : (turns plan device cases b)[i]? = some t)
    (hr : (casesRun o plan device n cases b s).1[i]? = some r)
    (h : .execute ∉ t.phases) : r.metrics = 0 := by
  obtain ⟨c, hc, rfl, hturn⟩ := exists_case_of_result o plan device n b s hr
  rw [ht] at hturn
  cases hturn
  exact metrics_runCase_of_unexecuted plan device i c _ o h

theorem accounted_casesRun (hids : (cases.map (·.id)).Nodup) :
    Accounted plan.abi (turns plan device cases b) (casesRun o plan device n cases b s).1
      (runSuite o plan device n cases b s).progress.outbox := by
  have hreported := reported_reporting o plan device n cases b s
  have hresults : ((casesRun o plan device n cases b s).1.map (·.id)).Nodup := by
    rw [ids_casesRun]
    exact hids
  have hlogs : (runSuite o plan device n cases b s).progress.outbox.logs =
      (reporting o plan device n cases b s).outbox.logs :=
    (stands_after o plan device n cases b s none []).standing.logs_eq
  have hunexecuted := @unexecuted_casesRun σ o plan device n cases b s
  constructor
  case held =>
    intro r hr
    rw [← log?_reporting]
    exact hreported.isSome_log? hresults hr
  case complete =>
    intro r hr log hsome
    rw [← log?_reporting] at hsome
    exact (hreported.of_log? hresults hr hsome).1
  case tally =>
    rw [hlogs]
    exact hreported.tally hresults
  case skipped =>
    intro r hr hskipped
    obtain ⟨i, hi⟩ := List.mem_iff_getElem?.1 hr
    obtain ⟨c, -, rfl, -⟩ := exists_case_of_result o plan device n b s hi
    exact metrics_runCase_of_skipped plan device i c _ o hskipped
  case unexecuted => exact fun i t r => hunexecuted
  case cancelled =>
    intro i t r ht hr hcancelled
    apply hunexecuted ht hr
    have hlawful := lawful_of_mem_turns (List.mem_of_getElem? ht)
    rw [hlawful.executed, hlawful.prepared]
    simp [hcancelled]
  case brokenDown =>
    intro i t r ht hr q hpanic
    apply hunexecuted ht hr
    have hlawful := lawful_of_mem_turns (List.mem_of_getElem? ht)
    rw [hlawful.executed]
    simp [hpanic]

/-- For distinct tests, a log is held exactly for each result with metrics, with
as many of them, and a flush that succeeds hands over these logs and no others. -/
theorem runSuite_accounted (hids : (cases.map (·.id)).Nodup) :
    let r := runSuite o plan device n cases b s
    let calls := callsAfter o plan device n cases b s none []
    r.summary.results.map (·.id) = cases.map (·.id) ∧
      Accounted plan.abi (turns plan device cases b) r.summary.results
        r.progress.outbox ∧
      ∀ receipt, (finalFlush o plan device n cases b s).1 = .ok receipt →
        r.summary.report.logsSent = (recordedIn r.summary.results).length ∧
        (calls = [] ∧ r.progress.outbox.logs = [] ∨
          ∃ batch a, calls = [(batch, .ok a)] ∧ batch.logs = r.progress.outbox.logs ∧
            batch.logs ≠ []) := by
  intro r calls
  have haccounted := accounted_casesRun o plan device n cases b s hids
  refine ⟨ids_runSuite o plan device n cases b s, haccounted, fun receipt hok => ?_⟩
  have hreported := reported_reporting o plan device n cases b s
  have hwaiting := Outbox.unsent_of_waiting hreported.waiting
  have hstands := (stands_after o plan device n cases b s none []).standing
  have hlogs : r.progress.outbox.logs = (reporting o plan device n cases b s).outbox.logs :=
    hstands.logs_eq
  have hcount := haccounted.tally.length_eq
  rw [List.length_map, List.length_map] at hcount
  obtain ⟨hsent, hcalls⟩ := hstands.of_first_ok hok
  rw [hwaiting, ← hlogs] at hsent hcalls
  constructor
  · exact hsent.trans hcount
  · exact hcalls

end Suite

/-- Records one metric twice, and breaks down in its cleanup. -/
def repeating : TestCase where
  id := ⟨"Metrics", "repeating", by decide, by decide⟩
  requires := .empty
  prepare := .ready
  execute := .record latency (.record latency (.pure .pass))
  cleanup := .panic .other
where
  latency : Metric := ⟨"latency", .single (.ofNat 5), .ms, .lowerBetter⟩

theorem runSuite_accounted_repeating :
    let cases := [repeating, search "second" (by decide)]
    let plan : Plan := ⟨"cts", "arm64", .standard⟩
    let r := runSuite inMemory plan slowDevice.profile ⟨"suite", "batch", 0⟩ cases
      (benchAt 0 slowDevice) .empty
    (cases.map (·.id)).Nodup ∧ (r.progress.outbox.log? (repeating.id.key plan.abi)).isSome ∧
      Accounted plan.abi (turns plan slowDevice.profile cases (benchAt 0 slowDevice))
        r.summary.results r.progress.outbox := by
  intro cases plan r
  have hids : (cases.map (·.id)).Nodup := by decide
  obtain ⟨-, haccounted, -⟩ := runSuite_accounted inMemory plan slowDevice.profile
    ⟨"suite", "batch", 0⟩ cases (benchAt 0 slowDevice) .empty hids
  have hcase : cases[0]? = some repeating := rfl
  have hfirst := result_midway inMemory plan slowDevice.profile ⟨"suite", "batch", 0⟩
    (benchAt 0 slowDevice) .empty hcase
  have hheld := haccounted.held _ (List.mem_of_getElem? hfirst)
  rw [(runCase_turn ..).1] at hheld
  exact ⟨hids, hheld.2 (by decide +kernel), haccounted⟩

end Compliance.Run
