import Compliance.Proofs.Check.Cancelling
import Compliance.Proofs.Run.ExitCodes
import Compliance.Proofs.Run.Midway

/-!
# Cancelled runs

The token may be set before a run or by any code of any case.  The case at hand
fails at its next wait, the cases behind it are called for nothing but their
cleanup, and the run still comes to its end and delivers what it has.
-/

namespace Compliance.Run

open Compliance.Check (Bench Context Failure Outcome Program TestCase)
open Compliance.Device (Profile)
open Compliance.Report (Outbox)

variable {σ : Type}

/-! ## Turns and the token -/

/-- The benches of a turn: the one it found, and those its calls left. -/
def Turn.benches (plan : Plan) (t : Turn) : List Bench :=
  t.phases.scanl (benchAfter plan t.testCase) t.start

/-- The point at which a turn comes to its execution. -/
def Turn.entry (plan : Plan) (t : Turn) : Program.Point Outcome :=
  let b := benchAfter plan t.testCase t.start .prepare
  ⟨t.testCase.execute, Context.start t.testCase.id plan.abi plan.timeouts b, b⟩

theorem isCancelled_benchAfter (plan : Plan) (c : TestCase) {b : Bench}
    (h : b.token.isCancelled = true) (phase : Phase) :
    (benchAfter plan c b phase).token.isCancelled = true := by
  cases phase with
  | prepare => exact c.prepare.isCancelled_run h
  | execute => exact c.execute.isCancelled_run h
  | cleanup => exact c.cleanup.isCancelled_run h

theorem isCancelled_foldl (plan : Plan) (c : TestCase) {b : Bench}
    (h : b.token.isCancelled = true) (phases : List Phase) :
    (phases.foldl (benchAfter plan c) b).token.isCancelled = true := by
  induction phases generalizing b with
  | nil => exact h
  | cons phase rest ih => exact ih (isCancelled_benchAfter plan c h phase)

/-- A cancellation that some bench of a turn has seen is there at its end. -/
theorem Turn.isCancelled_finish {plan : Plan} {t : Turn} {b : Bench}
    (hb : b ∈ t.benches plan) (h : b.token.isCancelled = true) :
    (t.finish plan).token.isCancelled = true := by
  obtain ⟨c, start, phases⟩ := t
  unfold benches at hb
  unfold finish
  simp only at hb ⊢
  induction phases generalizing start with
  | nil =>
      rw [List.scanl_nil, List.mem_singleton] at hb
      exact hb ▸ h
  | cons phase rest ih =>
      rw [List.scanl_cons, List.mem_cons] at hb
      rcases hb with rfl | hb
      · exact isCancelled_foldl plan c h _
      · exact ih _ hb

/-! ## Single cases -/

theorem isFailure_failed (id : Report.TestId) (span : Span) (f : Failure) :
    (TestResult.failed id span f).status.isFailure = true := by
  simp only [TestResult.failed]
  split <;> rfl

theorem afterCleanup_of_isFailure (c : TestCase) (start : Nat) (b : Bench) {r : TestResult}
    (h : r.status.isFailure = true) (panic? : Option Check.Panic) :
    afterCleanup c start b r panic? = r := by
  cases panic? with
  | none => rfl
  | some q => simp [afterCleanup, h]

section Case

variable (o : Outlets σ) (plan : Plan) (device : Profile) (index : Nat) (c : TestCase)
  (p : Progress σ)

/-- Cleanup has no say in the result of a case that failed before it. -/
theorem runCase_of_isFailure
    (h : (attempt plan device index c
      (p.setBench { p.bench with session := none })).1.status.isFailure = true) :
    (runCase o plan device index c p).1 =
      (attempt plan device index c (p.setBench { p.bench with session := none })).1 :=
  afterCleanup_of_isFailure c _ _ h _

/-- A case that finds the token set fails as cancelled, whatever its cleanup
does, and leaves the outbox alone. -/
theorem runCase_of_cancelled (h : p.bench.token.isCancelled = true) :
    (runCase o plan device index c p).1 =
        .failed c.id (spanFrom p.bench.clock p.bench) cancelledBefore ∧
      (runCase o plan device index c p).2.outbox = p.outbox ∧
      (turnOf device c p.bench).phases = [.cleanup] := by
  have hattempt : attempt plan device index c (p.setBench { p.bench with session := none }) =
      (.failed c.id (spanFrom p.bench.clock p.bench) cancelledBefore,
        p.setBench { p.bench with session := none }) := by
    unfold attempt
    exact if_pos h
  refine ⟨?_, ?_, ?_⟩
  · rw [runCase_of_isFailure, hattempt]
    rw [hattempt]
    exact isFailure_failed ..
  · simp only [runCase, hattempt]
    rfl
  · exact if_pos (Or.inl h)

theorem execute_of_stopped (start : Nat) {f : Failure}
    (hf : (c.execute.run (Context.start c.id plan.abi plan.timeouts p.bench)
      p.bench).ending = .stopped f) :
    ∃ span metrics, (execute plan c start p).1 =
      (TestResult.failed c.id span f).withMetrics metrics := by
  unfold execute
  simp only [hf, verdict]
  exact ⟨_, _, rfl⟩

/-- What stops an execution is what the result tells. -/
theorem attempt_of_stopped (h : .execute ∈ phasesOn device c p.bench) {f : Failure}
    (hf : ((Turn.mk c p.bench (phasesOn device c p.bench)).entry plan).finish.ending =
      .stopped f) :
    ∃ span metrics, (attempt plan device index c p).1 =
      (TestResult.failed c.id span f).withMetrics metrics := by
  have hcourse := attempt_course plan device index c p
  generalize attempt plan device index c p = out at hcourse ⊢
  cases hcourse with
  | cancelled htoken => simp [phasesOn, htoken] at h
  | lacking htoken hm => simp [phasesOn, hm] at h
  | refused htoken hm r b hp => simp [phasesOn, htoken, hm, hp] at h
  | brokenDown htoken hm q b hp => simp [phasesOn, htoken, hm, hp] at h
  | executed htoken hm b hp =>
      apply execute_of_stopped
      simp only [Turn.entry, Program.Point.finish, benchAfter, hp] at hf
      exact hf

theorem runCase_of_stopped (h : .execute ∈ (turnOf device c p.bench).phases) {f : Failure}
    (hf : ((turnOf device c p.bench).entry plan).finish.ending = .stopped f) :
    ∃ span metrics, (runCase o plan device index c p).1 =
      (TestResult.failed c.id span f).withMetrics metrics := by
  obtain ⟨span, metrics, hattempt⟩ := attempt_of_stopped plan device index c
    (p.setBench { p.bench with session := none }) h hf
  refine ⟨span, metrics, ?_⟩
  rw [runCase_of_isFailure, hattempt]
  rw [hattempt]
  exact isFailure_failed c.id span f

end Case

/-! ## The whole run -/

/-- The suite was cancelled before so many of its cases were over, be it before
the run or in one of these cases. -/
inductive CancelledWithin (plan : Plan) (device : Profile) (cases : List TestCase)
    (b : Bench) (k : Nat) : Prop where
  | before (h : b.token.isCancelled = true)
  | during {i : Nat} (hi : i < k) {t : Turn} (ht : (turns plan device cases b)[i]? = some t)
      {b' : Bench} (hb : b' ∈ t.benches plan) (h : b'.token.isCancelled = true)

/-- What there is left of an execution after a cancellation. -/
structure Interrupted (entry p : Program.Point Outcome) (r : TestResult) : Prop where
  awaits : ∀ d s now, Check.awaitEvent d p.bench.token s now =
    (.error Check.cancelledFailure, s, now)
  gathers : ∀ enough next s, p.rest = .gather enough next → p.bench.session = some s →
    entry.finish = ⟨.stopped Check.cancelledFailure, p.context.log, p.bench⟩ ∧
      r.status = .fail ∧ r.cause = some .cancelled
  stays : entry.finish.bench.token.isCancelled = true

section Suite

variable (o : Outlets σ) (plan : Plan) (device : Profile) (n : Naming)
  (cases : List TestCase) (b : Bench) (s : σ)

/-- What a run is that was cancelled before so many of its cases were over. -/
structure CalledOff (k : Nat) : Prop where
  results : ∀ j c, k ≤ j → cases[j]? = some c →
    ∃ r, (runSuite o plan device n cases b s).summary.results[j]? = some r ∧ r.id = c.id ∧
      r.status = .fail ∧ r.cause = some .cancelled ∧ r.metrics = 0
  turns : ∀ j c, k ≤ j → cases[j]? = some c →
    ∃ t, (turns plan device cases b)[j]? = some t ∧ t.testCase = c ∧ t.phases = [.cleanup]
  logs : (runSuite o plan device n cases b s).progress.outbox.logs =
    (midway o plan device n cases b s k).outbox.logs
  unlogged : ∀ j c, k ≤ j → cases[j]? = some c → (∀ d ∈ cases.take k, d.id ≠ c.id) →
    (runSuite o plan device n cases b s).progress.outbox.log? (c.id.key plan.abi) = none
  logged : ∀ r ∈ (runSuite o plan device n cases b s).summary.results, 0 < r.metrics →
    ∃ log ∈ (midway o plan device n cases b s k).outbox.logs, log.key = r.id.key plan.abi
  flushed : (callsAfter o plan device n cases b s none []).map (·.1.logs) =
    if (midway o plan device n cases b s k).outbox.logs = [] then []
    else [(midway o plan device n cases b s k).outbox.logs]
  cancelled : (runSuite o plan device n cases b s).summary.cancelled = true
  exitCode : (runSuite o plan device n cases b s).summary.exitCode = 80
  exit : (runSuite o plan device n cases b s).summary.exit.value = 80

variable {cases} {k : Nat}

theorem isCancelled_runCase (index : Nat) (c : TestCase) {p : Progress σ}
    (h : p.bench.token.isCancelled = true) :
    (runCase o plan device index c p).2.bench.token.isCancelled = true := by
  obtain ⟨-, -, hbench, -⟩ := runCase_turn o plan device index c p
  rw [hbench]
  exact isCancelled_foldl plan c (b := { p.bench with session := none }) h _

theorem isCancelled_midway_of_le {i : Nat} (hik : i ≤ k)
    (h : (midway o plan device n cases b s i).bench.token.isCancelled = true) :
    (midway o plan device n cases b s k).bench.token.isCancelled = true :=
  midway_le_induction o plan device n b s (P := fun p => p.bench.token.isCancelled = true)
    (fun j c _ hj => isCancelled_runCase o plan device j c hj) h hik

theorem CancelledWithin.isCancelled_midway (h : CancelledWithin plan device cases b k) :
    (midway o plan device n cases b s k).bench.token.isCancelled = true := by
  cases h with
  | before h =>
      apply isCancelled_midway_of_le o plan device n b s (Nat.zero_le k)
      rw [midway_zero, Progress.bench_opened]
      exact h
  | @during i hi t ht b' hb h =>
      apply isCancelled_midway_of_le o plan device n b s (Nat.succ_le_of_lt hi)
      have hcase := congrArg (·[i]?) (testCase_turns plan device cases b)
      simp only [List.getElem?_map, ht, Option.map_some] at hcase
      have hturn := turn_midway o plan device n b s hcase.symm
      rw [ht] at hturn
      obtain ⟨-, -, hbench, -⟩ := runCase_turn o plan device i t.testCase
        (midway o plan device n cases b s i)
      rw [midway_succ o plan device n b s hcase.symm, hbench, ← Option.some.inj hturn]
      exact t.isCancelled_finish hb h

variable (h : (midway o plan device n cases b s k).bench.token.isCancelled = true)

include h

theorem outbox_midway_of_le {j : Nat} (hkj : k ≤ j) :
    (midway o plan device n cases b s j).outbox =
      (midway o plan device n cases b s k).outbox := by
  have hboth := midway_le_induction o plan device n b s
    (P := fun p => p.bench.token.isCancelled = true ∧
      p.outbox = (midway o plan device n cases b s k).outbox)
    (fun i c _ ⟨hcancelled, houtbox⟩ =>
      ⟨isCancelled_runCase o plan device i c hcancelled,
        (runCase_of_cancelled o plan device i c _ hcancelled).2.1.trans houtbox⟩)
    ⟨h, rfl⟩ hkj
  exact hboth.2

theorem outbox_reporting_of_cancelled :
    (reporting o plan device n cases b s).outbox =
      (midway o plan device n cases b s k).outbox := by
  have hlast := outbox_midway_of_le o plan device n b s h (Nat.le_max_left k cases.length)
  rw [midway_of_length_le o plan device n cases b s (Nat.le_max_right _ _)] at hlast
  rw [reporting, Progress.outbox_advance, hlast]

theorem isCancelled_reporting :
    (reporting o plan device n cases b s).bench.token.isCancelled = true := by
  have hlast := isCancelled_midway_of_le o plan device n b s (Nat.le_max_left k cases.length) h
  rw [midway_of_length_le o plan device n cases b s (Nat.le_max_right _ _)] at hlast
  rw [reporting, Progress.bench_advance]
  exact hlast

theorem calledOff_of_isCancelled : CalledOff o plan device n cases b s k := by
  have hstands := stands_after o plan device n cases b s none []
  have hfinal := outbox_reporting_of_cancelled o plan device n b s h
  have hreporting := reported_reporting o plan device n cases b s
  have hbase : (opening o plan device n cases b s).cancelled = true :=
    isCancelled_reporting o plan device n b s h
  have hcase (j : Nat) (c : TestCase) (hkj : k ≤ j) (hc : cases[j]? = some c) :=
    runCase_of_cancelled o plan device j c (midway o plan device n cases b s j)
      (isCancelled_midway_of_le o plan device n b s hkj h)
  constructor
  case results =>
    intro j c hkj hc
    obtain ⟨hresult, -, -⟩ := hcase j c hkj hc
    refine ⟨_, result_midway o plan device n b s hc, ?_⟩
    rw [hresult]
    exact ⟨rfl, rfl, rfl, rfl⟩
  case turns =>
    intro j c hkj hc
    exact ⟨_, turn_midway o plan device n b s hc, rfl, (hcase j c hkj hc).2.2⟩
  case logs => exact hfinal ▸ hstands.standing.logs_eq
  case unlogged =>
    intro j c hkj hc hne
    rw [log?_runSuite]
    have hbefore : (midway o plan device n cases b s k).outbox.log? (c.id.key plan.abi) =
        (Progress.opened o n cases.length b s).outbox.log? (c.id.key plan.abi) :=
      log?_runCases_of_ne plan device o 0 (cases.take k) _
        fun d hd heq => hne d hd (Report.TestId.key_injective heq).symm
    rw [Progress.outbox_opened] at hbefore
    rw [reporting, Progress.outbox_advance] at hfinal
    rw [hfinal]
    exact hbefore
  case logged =>
    intro r hr hpos
    rw [hfinal] at hreporting
    exact hreporting.exists_log hr hpos
  case flushed =>
    rw [logs_callsAfter_nil, Outbox.unsent_of_waiting hreporting.waiting, hfinal]
  case cancelled =>
    rw [summary_eq_opening]
    exact hbase
  case exitCode => exact hstands.exitCode_eq.trans (if_pos hbase)
  case exit => exact Int.ofNat.inj (hstands.exit_eq.trans
      (hstands.exitCode_eq.trans (if_pos hbase)))

omit h

theorem interrupted_of_reaches {i : Nat} {t : Turn} {r : TestResult}
    (ht : (turns plan device cases b)[i]? = some t)
    (hr : (casesRun o plan device n cases b s).1[i]? = some r) (hmem : .execute ∈ t.phases)
    {p q : Program.Point Outcome} (hp : Program.Reaches (t.entry plan) p)
    (hcancelled : p.bench.token.isCancelled = true) (hq : Program.Reaches p q) :
    Interrupted (t.entry plan) q r := by
  have hset := hq.isCancelled hcancelled
  have hreach : Program.Reaches (t.entry plan) q := hp.trans hq
  constructor
  case awaits => exact fun d s now => Check.awaitEvent_of_cancelled hset
  case gathers =>
    intro enough next session hrest hs
    obtain ⟨rest, context, bench⟩ := q
    simp only at hrest hs hset
    subst hrest
    have hfinish := Program.finish_of_cancelled_wait hreach hs hset
    obtain ⟨c, hc, rfl, hturn⟩ := exists_case_of_result o plan device n b s hr
    rw [ht] at hturn
    cases hturn
    obtain ⟨span, metrics, hresult⟩ := runCase_of_stopped o plan device i c _ hmem
      (congrArg Check.Finish.ending hfinish)
    rw [hresult]
    exact ⟨hfinish, rfl, rfl⟩
  case stays =>
    rw [hreach.finish_eq]
    exact q.rest.isCancelled_run hset

/-- Whenever the token is set, the case at hand can only fail as cancelled when it
waits, all cases behind it fail as cancelled and are called for their cleanup
alone, and the run is done with one result for each case, delivers the logs it
had, and exits as cancelled. -/
theorem runSuite_calledOff (o : Outlets σ) (plan : Plan) (device : Profile) (n : Naming)
    (cases : List TestCase) (b : Bench) (s : σ) :
    let r := runSuite o plan device n cases b s
    let ts := turns plan device cases b
    (r.summary.results.map (·.id) = cases.map (·.id) ∧ ts.map (·.testCase) = cases ∧
      calls r.progress.journal = callsOf 0 ts ∧
      progressOf r.progress.state = (.done, cases.length, cases.length)) ∧
    (∀ (i : Nat) (t : Turn) (result : TestResult), ts[i]? = some t →
      r.summary.results[i]? = some result → .execute ∈ t.phases →
      ∀ p, Program.Reaches (t.entry plan) p → p.bench.token.isCancelled = true →
      ∀ q, Program.Reaches p q → Interrupted (t.entry plan) q result) ∧
    ∀ k, CancelledWithin plan device cases b k → CalledOff o plan device n cases b s k := by
  intro r ts
  refine ⟨⟨ids_runSuite o plan device n cases b s, testCase_turns plan device cases b,
    calls_runSuite o plan device n cases b s, progressOf_runSuite o plan device n cases b s⟩,
    ?_, ?_⟩
  · intro i t result ht hresult hmem p hp hcancelled q hq
    exact interrupted_of_reaches o plan device n b s ht hresult hmem hp hcancelled hq
  · intro k h
    exact calledOff_of_isCancelled o plan device n b s
      (h.isCancelled_midway o plan device n b s)

end Suite

/-- Cancels its suite and passes. -/
def quitting : TestCase where
  id := ⟨"Cancelling", "quitting", by decide, by decide⟩
  requires := .empty
  prepare := .ready
  execute := .cancel (.pure .pass)
  cleanup := .done

/-- Breaks down in its cleanup. -/
def untidy : TestCase where
  id := ⟨"Cancelling", "untidy", by decide, by decide⟩
  requires := .empty
  prepare := .ready
  execute := .pure .pass
  cleanup := .panic .other

theorem runSuite_calledOff_quitting :
    let plan : Plan := ⟨"cts", "arm64", .standard⟩
    CancelledWithin plan slowDevice.profile [quitting, untidy] (benchAt 0 slowDevice) 1 ∧
      CalledOff inMemory plan slowDevice.profile ⟨"suite", "batch", 0⟩ [quitting, untidy]
        (benchAt 0 slowDevice) .empty 1 := by
  intro plan
  have hcancelled : CancelledWithin plan slowDevice.profile [quitting, untidy]
      (benchAt 0 slowDevice) 1 := by
    apply CancelledWithin.during Nat.one_pos rfl
    · exact List.mem_of_getElem? (i := 2) rfl
    · rfl
  obtain ⟨-, -, hcalledOff⟩ := runSuite_calledOff inMemory plan slowDevice.profile
    ⟨"suite", "batch", 0⟩ [quitting, untidy] (benchAt 0 slowDevice) .empty
  exact ⟨hcancelled, hcalledOff 1 hcancelled⟩

end Compliance.Run
