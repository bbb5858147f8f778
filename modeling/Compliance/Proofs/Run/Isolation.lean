import Compliance.Proofs.Check.GivingBack
import Compliance.Proofs.Report.Keys
import Compliance.Proofs.Report.Outbox
import Compliance.Proofs.Run.Lifecycle

/-!
# Isolation of tests

A case of the registry finds every bench it is given alike, but for the clock
and the requests of others, and leaves one that is alike again.  So what comes
of it does not depend on the suite it is part of.
-/

namespace Compliance.Report

/-- The log without the time it was started. -/
def Log.undated (log : Log) : Log :=
  log.dated (.ofMillis 0)

@[simp] theorem Log.undated_dated (t : Time.Timestamp) (log : Log) :
    (log.dated t).undated = log.undated := rfl

/-- Files what a case recorded, if it recorded anything. -/
def Outbox.file (o : Outbox) : Option Log → Outbox
  | none => o
  | some log => o.submit log

theorem Outbox.log?_file_self {o : Outbox} {key : TestKey} (h : o.log? key = none)
    {filed : Option Log} (hkey : ∀ log ∈ filed, log.key = key) :
    (o.file filed).log? key = filed := by
  cases filed with
  | none => exact h
  | some log =>
      have hlog := hkey log rfl
      subst hlog
      simp [file, submit, log?]

theorem Outbox.log?_file_of_ne (o : Outbox) {key other : TestKey} (h : other ≠ key)
    {filed : Option Log} (hkey : ∀ log ∈ filed, log.key = key) :
    (o.file filed).log? other = o.log? other := by
  cases filed with
  | none => rfl
  | some log =>
      have hlog := hkey log rfl
      subst hlog
      exact o.log?_put_of_ne h ⟨log, false⟩

end Compliance.Report

namespace Compliance.Check

open Compliance.Device (Request Script)

/-- A device nobody has touched, before any time has passed. -/
def Bench.untouched (device : Script) : Bench :=
  ⟨0, .fresh, .ofScript device, none⟩

/-- Without a session, a bench is told from an untouched one by its clock and
its requests only. -/
theorem Bench.Serves.eq_later {device : Script} {b : Bench}
    (h : b.Serves device .fresh) (hs : b.session = none) :
    b = (untouched device).later b.clock b.platform.requests := by
  obtain ⟨clock, token, ⟨available, responses, held, requests⟩, session⟩ := b
  obtain ⟨htoken, havailable, hresponses, hheld⟩ := h
  simp only at htoken havailable hresponses hs hheld
  subst htoken havailable hresponses hs
  simp only [holding] at hheld
  subst hheld
  simp [untouched, later, Device.Platform.behind, Device.Platform.ofScript,
    Device.CapabilitySet.empty]

theorem Bench.later_zero (b : Bench) : b.later 0 [] = b := by
  have hdue : Device.Due.later 0 = id := by
    funext d
    simp [Device.Due.later]
  have hsession : Device.Session.later 0 = id := by
    funext s
    simp [Device.Session.later, hdue]
  simp [later, Device.Platform.behind, hsession]

theorem Program.Step.key_eq {α : Type} {p q : Point α} (h : Step p q) :
    q.context.log.key = p.context.log.key := by
  cases h with
  | cancel | sleep | look | send | gather | release => rfl
  | record next b hadd => exact Report.Log.key_of_add hadd
  | headline next b hset => exact Report.Log.key_of_setHeadline hset

theorem Program.key_run {α : Type} (code : Program α) (c : Context) (b : Bench) :
    (code.run c b).log.key = c.log.key := by
  apply finish_induction (p := ⟨code, c, b⟩) (P := fun p => p.context.log.key = c.log.key)
    (Q := fun f => f.log.key = c.log.key)
  · exact fun p q hp hstep => hstep.key_eq.trans hp
  · exact fun p f hp hhalt => (congrArg Report.Log.key hhalt.log_eq).trans hp
  · rfl

end Compliance.Check

namespace Compliance.Run

open Compliance.Check (Bench Context TestCase)
open Compliance.Device (Profile Request Script)
open Compliance.Report (Log Outbox TestKey)

/-- The result without the time the test was started. -/
def TestResult.undated (r : TestResult) : TestResult :=
  { r with startedAt := .ofMillis 0 }

variable {σ τ : Type}

/-- Two runs of a case that differ in nothing but times and requests. -/
structure Alike (k : Nat) (rs : List Request) (key : TestKey) (p : Progress σ)
    (p' : Progress τ) (out : TestResult × Progress σ)
    (out' : TestResult × Progress τ) : Prop where
  result : out'.1.undated = out.1.undated
  bench : out'.2.bench = out.2.bench.later k rs
  filed : ∃ (filed : Option Log) (t : Time.Timestamp),
    (∀ log ∈ filed, log.key = key) ∧ out.2.outbox = p.outbox.file filed ∧
      out'.2.outbox = p'.outbox.file (filed.map (·.dated t))

theorem fileLog_eq (o : Outbox) (log : Log) :
    fileLog o log = o.file (if log.isEmpty then none else some log) := by
  unfold fileLog
  split <;> rfl

section Later

variable (plan : Plan) (device : Profile) (k : Nat) (rs : List Request)

theorem spanFrom_later (start : Nat) (b : Bench) :
    (spanFrom (k + start) (b.later k rs)).durationMs = (spanFrom start b).durationMs := by
  simp only [spanFrom, Check.Bench.clock_later]
  omega

theorem undated_passed (id : Report.TestId) {s s' : Span} (o : Check.Outcome)
    (h : s'.durationMs = s.durationMs) :
    (TestResult.passed id s' o).undated = (TestResult.passed id s o).undated := by
  simp [TestResult.passed, TestResult.undated, h]

theorem undated_skipped (id : Report.TestId) {s s' : Span} (r : Check.SkipReason)
    (h : s'.durationMs = s.durationMs) :
    (TestResult.skipped id s' r).undated = (TestResult.skipped id s r).undated := by
  simp [TestResult.skipped, TestResult.undated, h]

theorem undated_failed (id : Report.TestId) {s s' : Span} (f : Check.Failure)
    (h : s'.durationMs = s.durationMs) :
    (TestResult.failed id s' f).undated = (TestResult.failed id s f).undated := by
  simp [TestResult.failed, TestResult.undated, h]

theorem undated_withMetrics {r r' : TestResult} (h : r'.undated = r.undated) (n : Nat) :
    (r'.withMetrics n).undated = (r.withMetrics n).undated := by
  simp only [TestResult.undated, TestResult.mk.injEq] at h
  simp [TestResult.undated, TestResult.withMetrics, h]

theorem execute_alike (c : TestCase) (start : Nat) (p : Progress σ) (p' : Progress τ)
    (hb : p'.bench = p.bench.later k rs) :
    Alike k rs (c.id.key plan.abi) p p' (execute plan c start p)
      (execute plan c (k + start) p') := by
  have hrun := c.execute.run_later k rs (p.bench.later k rs).now
    (Context.start c.id plan.abi plan.timeouts p.bench) p.bench
  rw [← Context.start_later] at hrun
  have hkey := c.execute.key_run (Context.start c.id plan.abi plan.timeouts p.bench)
    p.bench
  unfold execute
  simp only [hb, hrun]
  generalize c.execute.run (Context.start c.id plan.abi plan.timeouts p.bench) p.bench
    = f at hkey
  refine ⟨?_, rfl, ?_⟩
  · have hexpired := Check.Deadline.isExpired_later k
      (Context.start c.id plan.abi plan.timeouts p.bench).deadline f.bench.clock
    have hspan := spanFrom_later k rs start f.bench
    simp only [Check.Finish.later, Context.start_later, Context.later,
      Check.Bench.clock_later, hexpired]
    apply undated_withMetrics
    split
    · exact undated_passed c.id _ hspan
    · exact undated_failed c.id _ hspan
  · refine ⟨if f.log.isEmpty then none else some f.log, (p.bench.later k rs).now,
      ?_, fileLog_eq p.outbox f.log, ?_⟩
    · intro log hlog
      split at hlog
      · cases hlog
      · cases hlog
        exact hkey
    · rw [fileLog_eq]
      by_cases he : f.log.isEmpty = true
      · have he' : (f.log.dated (p.bench.later k rs).now).isEmpty = true := he
        simp [Check.Finish.later, he, he']
      · have he' : ¬ (f.log.dated (p.bench.later k rs).now).isEmpty = true := he
        simp [Check.Finish.later, he, he']

/-- Nothing is filed by a case that does not come to its execution. -/
theorem Alike.of_outbox_eq {key : TestKey} {p : Progress σ} {p' : Progress τ}
    {out : TestResult × Progress σ} {out' : TestResult × Progress τ}
    (hresult : out'.1.undated = out.1.undated)
    (hbench : out'.2.bench = out.2.bench.later k rs)
    (hout : out.2.outbox = p.outbox) (hout' : out'.2.outbox = p'.outbox) :
    Alike k rs key p p' out out' :=
  ⟨hresult, hbench, none, .ofMillis 0, by simp, hout, hout'⟩

theorem attempt_alike (i j : Nat) (c : TestCase) (p : Progress σ) (p' : Progress τ)
    (hb : p'.bench = p.bench.later k rs) :
    Alike k rs (c.id.key plan.abi) p p' (attempt plan device i c p)
      (attempt plan device j c p') := by
  have hspan (b : Bench) := spanFrom_later k rs p.bench.clock b
  unfold attempt
  cases ht : p.bench.token.isCancelled with
  | true =>
      simp only [hb, Check.Bench.token_later, Check.Bench.clock_later, ht, ↓reduceIte]
      exact .of_outbox_eq k rs (undated_failed c.id _ (hspan p.bench)) hb rfl rfl
  | false =>
      cases hm : device.missing c.requires with
      | cons m ms =>
          simp only [hb, Check.Bench.token_later, Check.Bench.clock_later, ht,
            Bool.false_eq_true, ↓reduceIte]
          exact .of_outbox_eq k rs (undated_skipped c.id _ (hspan p.bench)) hb rfl rfl
      | nil =>
          have hprepare := c.prepare.run_later k rs p.bench
          simp only [hb, Check.Bench.token_later, Check.Bench.clock_later, ht,
            Bool.false_eq_true, ↓reduceIte, Progress.bench_enter, hprepare]
          generalize c.prepare.run p.bench = out
          obtain ⟨ending, b⟩ := out
          cases ending with
          | returned _ =>
              obtain ⟨hresult, hbench, hfiled⟩ := execute_alike plan k rs c
                p.bench.clock (((p.enter i c .prepare).setBench b).enter i c .execute)
                (((p'.enter j c .prepare).setBench (b.later k rs)).enter j c .execute)
                rfl
              exact ⟨hresult, hbench, hfiled⟩
          | stopped r =>
              exact .of_outbox_eq k rs (undated_skipped c.id r (hspan b)) rfl rfl rfl
          | panicked q =>
              exact .of_outbox_eq k rs (undated_failed c.id _ (hspan b)) rfl rfl rfl

theorem afterCleanup_alike (c : TestCase) (start : Nat) (b : Bench)
    {r r' : TestResult} (h : r'.undated = r.undated) (panic? : Option Check.Panic) :
    (afterCleanup c (k + start) (b.later k rs) r' panic?).undated =
      (afterCleanup c start b r panic?).undated := by
  cases panic? with
  | none => exact h
  | some q =>
      have hstatus : r'.status = r.status := by
        simp only [TestResult.undated, TestResult.mk.injEq] at h
        exact h.2.1
      have hmetrics : r'.metrics = r.metrics := by
        simp only [TestResult.undated, TestResult.mk.injEq] at h
        exact h.2.2.2.2.2.2
      simp only [afterCleanup, hstatus, hmetrics]
      split
      · exact h
      · apply undated_withMetrics
        exact undated_failed c.id _ (spanFrom_later k rs start b)

theorem runCase_alike (o : Outlets σ) (o' : Outlets τ) (i j : Nat) (c : TestCase)
    (p : Progress σ) (p' : Progress τ)
    (hb : { p'.bench with session := none } =
      ({ p.bench with session := none } : Bench).later k rs) :
    Alike k rs (c.id.key plan.abi) p p' (runCase o plan device i c p)
      (runCase o' plan device j c p') := by
  have hclock : p'.bench.clock = k + p.bench.clock := congrArg Bench.clock hb
  have halike := attempt_alike plan device k rs i j c
    (p.setBench { p.bench with session := none })
    (p'.setBench { p'.bench with session := none }) hb
  unfold runCase
  generalize attempt plan device i c (p.setBench { p.bench with session := none }) =
    out at halike
  generalize attempt plan device j c (p'.setBench { p'.bench with session := none }) =
    out' at halike
  obtain ⟨hresult, hbench, hfiled⟩ := halike
  have hcleanup := c.cleanup.run_later k rs out.2.bench
  refine ⟨?_, ?_, hfiled⟩
  · simp only [Progress.bench_enter, hbench, hcleanup, hclock]
    exact afterCleanup_alike k rs c p.bench.clock _ hresult _
  · simp only [Progress.bench_record, Progress.bench_setState,
      Progress.bench_setBench, Progress.bench_enter, hbench, hcleanup]

end Later

/-! ## Cases on the benches of one device -/

section Serving

variable {script : Script} (plan : Plan) (device : Profile)

theorem attempt_serves (i : Nat) {c : TestCase} (hc : c.GivesBack) {p : Progress σ}
    {t : Check.CancelToken} (hp : p.bench.Serves script t) :
    (attempt plan device i c p).2.bench.Serves script t := by
  have hcourse := attempt_course plan device i c p
  generalize attempt plan device i c p = out at hcourse ⊢
  cases hcourse with
  | cancelled | lacking => exact hp
  | refused h hm r b hrun | brokenDown h hm r b hrun =>
      have hb := hc.prepare.run hp
      rw [hrun] at hb
      exact hb
  | executed h hm b hrun =>
      have hb := hc.prepare.run hp
      rw [hrun] at hb
      exact hc.execute.run hb

/-- A case that gives back what it takes leaves the bench without a session and
the device as it was. -/
theorem runCase_serves (o : Outlets σ) (i : Nat) {c : TestCase} (hc : c.GivesBack)
    {p : Progress σ} (hp : p.bench.Serves script .fresh) (hs : p.bench.session = none) :
    (runCase o plan device i c p).2.bench.Serves script .fresh ∧
      (runCase o plan device i c p).2.bench.session = none := by
  have hstart : ({ p.bench with session := none } : Bench) = p.bench := by
    rw [← hs]
  have hattempt := attempt_serves plan device i hc
    (p := p.setBench { p.bench with session := none })
    (by rw [hstart]; exact hp)
  simp only [runCase, hc.cleanup, Progress.bench_record, Progress.bench_setState,
    Progress.bench_setBench, Progress.bench_enter, Check.Cleanup.run]
  exact ⟨hattempt.release, Bench.session_release _⟩

/-- What comes of a case is the same on any two benches of a device. -/
theorem runCase_agree (o : Outlets σ) (o' : Outlets τ) (i j : Nat) {c : TestCase}
    {p : Progress σ} {p' : Progress τ}
    (hp : p.bench.Serves script .fresh) (hs : p.bench.session = none)
    (hp' : p'.bench.Serves script .fresh) (hs' : p'.bench.session = none)
    (hlog : p.outbox.log? (c.id.key plan.abi) = none)
    (hlog' : p'.outbox.log? (c.id.key plan.abi) = none) :
    (runCase o plan device i c p).1.undated =
        (runCase o' plan device j c p').1.undated ∧
      ((runCase o plan device i c p).2.outbox.log? (c.id.key plan.abi)).map
          Log.undated =
        ((runCase o' plan device j c p').2.outbox.log? (c.id.key plan.abi)).map
          Log.undated := by
  -- Both runs are compared with one on the untouched bench.
  let q := p.setBench (Bench.untouched script)
  have hq (b : Bench) (hb : b.Serves script .fresh) (hn : b.session = none) :
      { b with session := none } = ({ q.bench with session := none } : Bench).later
        b.clock b.platform.requests := by
    have hsame : ({ b with session := none } : Bench) = b := by
      rw [← hn]
    rw [hsame]
    exact hb.eq_later hn
  obtain ⟨hresult, -, filed, t, hkey, hfiled, hfiledp⟩ := runCase_alike plan device
    p.bench.clock p.bench.platform.requests o o 0 i c q p (hq p.bench hp hs)
  obtain ⟨hresult', -, filed', t', hkey', hfiled', hfiledp'⟩ := runCase_alike plan
    device p'.bench.clock p'.bench.platform.requests o o' 0 j c q p'
    (hq p'.bench hp' hs')
  have hlogq : q.outbox.log? (c.id.key plan.abi) = none := hlog
  have hsame : filed = filed' := by
    rw [← Outbox.log?_file_self hlogq hkey, ← Outbox.log?_file_self hlogq hkey',
      ← hfiled, ← hfiled']
  subst hsame
  have hdated (u : Time.Timestamp) :
      ∀ log ∈ filed.map (·.dated u), log.key = c.id.key plan.abi := by
    intro log hmem
    obtain ⟨l, hl, rfl⟩ := Option.map_eq_some_iff.1 hmem
    exact hkey l hl
  refine ⟨hresult.trans hresult'.symm, ?_⟩
  rw [hfiledp, hfiledp', Outbox.log?_file_self hlog (hdated t),
    Outbox.log?_file_self hlog' (hdated t')]
  simp [Function.comp_def]

/-- A case files at most one log, and under its own key. -/
theorem log?_runCase_of_ne (o : Outlets σ) (i : Nat) {c : TestCase} (p : Progress σ)
    {key : TestKey} (h : key ≠ c.id.key plan.abi) :
    (runCase o plan device i c p).2.outbox.log? key = p.outbox.log? key := by
  obtain ⟨-, -, filed, t, hkey, hfiled, -⟩ := runCase_alike plan device 0 [] o o i i c
    p p (Check.Bench.later_zero _).symm
  rw [hfiled, Outbox.log?_file_of_ne _ h hkey]

theorem log?_runCases_of_ne (o : Outlets σ) (i : Nat) (cases : List TestCase)
    (p : Progress σ) {key : TestKey} (h : ∀ c ∈ cases, key ≠ c.id.key plan.abi) :
    (runCases o plan device i cases p).2.outbox.log? key = p.outbox.log? key := by
  induction cases generalizing i p with
  | nil => rfl
  | cons c rest ih =>
      have hrest := ih (i + 1) (runCase o plan device i c p).2
        (fun c' hc' => h c' (List.mem_cons_of_mem c hc'))
      exact hrest.trans
        (log?_runCase_of_ne plan device o i p (h c List.mem_cons_self))

/-- Every case runs on a bench of the device without a session, and nothing
after it touches its log. -/
theorem runCases_each (o : Outlets σ) (i : Nat) {cases : List TestCase}
    {p : Progress σ} (hgive : ∀ c ∈ cases, c.GivesBack)
    (hids : (cases.map (·.id)).Nodup)
    (hp : p.bench.Serves script .fresh) (hs : p.bench.session = none)
    (hlogs : ∀ c ∈ cases, p.outbox.log? (c.id.key plan.abi) = none)
    {n : Nat} {c : TestCase} (hc : cases[n]? = some c) :
    ∃ (q : Progress σ) (j : Nat), q.bench.Serves script .fresh ∧
      q.bench.session = none ∧ q.outbox.log? (c.id.key plan.abi) = none ∧
      (runCases o plan device i cases p).1[n]? =
        some (runCase o plan device j c q).1 ∧
      (runCases o plan device i cases p).2.outbox.log? (c.id.key plan.abi) =
        (runCase o plan device j c q).2.outbox.log? (c.id.key plan.abi) := by
  induction cases generalizing i p n with
  | nil => simp at hc
  | cons d rest ih =>
      rw [List.map_cons, List.nodup_cons] at hids
      have hother : ∀ c' ∈ rest, c'.id.key plan.abi ≠ d.id.key plan.abi := by
        intro c' hc' heq
        have hid := Report.TestId.key_injective heq
        exact hids.1 (hid ▸ List.mem_map_of_mem hc')
      cases n with
      | zero =>
          have hd : d = c := by simpa using hc
          subst hd
          refine ⟨p, i, hp, hs, hlogs d List.mem_cons_self, rfl, ?_⟩
          exact log?_runCases_of_ne plan device o (i + 1) rest _
            (fun c' hc' => (hother c' hc').symm)
      | succ n =>
          have hgiven := hgive d List.mem_cons_self
          obtain ⟨hp', hs'⟩ := runCase_serves plan device o i hgiven hp hs
          apply ih (i + 1) (fun c' hc' => hgive c' (List.mem_cons_of_mem d hc'))
            hids.2 hp' hs'
          · intro c' hc'
            rw [log?_runCase_of_ne plan device o i p (hother c' hc')]
            exact hlogs c' (List.mem_cons_of_mem d hc')
          · simpa using hc

end Serving

/-! ## Suites on one device -/

/-- A clock that has run for a while before a device that nobody has touched. -/
def benchAt (start : Nat) (script : Script) : Bench :=
  ⟨start, .fresh, .ofScript script, none⟩

theorem log?_runSuite (o : Outlets σ) (plan : Plan) (device : Profile) (n : Naming)
    (cases : List TestCase) (b : Bench) (s : σ) (key : TestKey) :
    (runSuite o plan device n cases b s).progress.outbox.log? key =
      (casesRun o plan device n cases b s).2.outbox.log? key := by
  rw [progress_runSuite, Progress.outbox_advance]
  simp only [finalFlush, Outbox.log?_flush, reporting, Progress.outbox_advance]

/-- The last flush changes no log. -/
theorem log?_reporting (o : Outlets σ) (plan : Plan) (device : Profile) (n : Naming)
    (cases : List TestCase) (b : Bench) (s : σ) (key : TestKey) :
    (reporting o plan device n cases b s).outbox.log? key =
      (runSuite o plan device n cases b s).progress.outbox.log? key := by
  rw [log?_runSuite, reporting, Progress.outbox_advance]

/-- A suite opens on a device that serves it, with nothing held and no logs. -/
theorem Progress.ready_opened (o : Outlets σ) (n : Naming) (total start : Nat)
    (script : Script) (s : σ) :
    (Progress.opened o n total (benchAt start script) s).bench.Serves script .fresh ∧
      (Progress.opened o n total (benchAt start script) s).bench.session = none ∧
      ∀ key, (Progress.opened o n total (benchAt start script) s).outbox.log? key =
        none := by
  rw [Progress.bench_opened, Progress.outbox_opened]
  exact ⟨⟨rfl, rfl, rfl, rfl⟩, rfl, fun _ => rfl⟩

/-- What two suites of registry checks on one device make of a case they both
have. -/
theorem runSuite_agree (o : Outlets σ) (o' : Outlets τ) (plan : Plan)
    (device : Profile) (script : Script) (n n' : Naming) (start start' : Nat)
    (s : σ) (s' : τ) {cases cases' : List TestCase}
    (hgive : ∀ c ∈ cases, c.GivesBack) (hids : (cases.map (·.id)).Nodup)
    (hgive' : ∀ c ∈ cases', c.GivesBack) (hids' : (cases'.map (·.id)).Nodup)
    {i j : Nat} {c : TestCase} (hi : cases[i]? = some c) (hj : cases'[j]? = some c) :
    let run := runSuite o plan device n cases (benchAt start script) s
    let run' := runSuite o' plan device n' cases' (benchAt start' script) s'
    (∃ r r', run.summary.results[i]? = some r ∧ run'.summary.results[j]? = some r' ∧
      r.undated = r'.undated) ∧
    (run.progress.outbox.log? (c.id.key plan.abi)).map Log.undated =
      (run'.progress.outbox.log? (c.id.key plan.abi)).map Log.undated := by
  intro run run'
  obtain ⟨hserves, hidle, hnone⟩ := Progress.ready_opened o n cases.length start script s
  obtain ⟨q, k, hq, hqs, hqlog, hresult, hlog⟩ := runCases_each plan device o 0 hgive
    hids hserves hidle (fun _ _ => hnone _) hi
  obtain ⟨hserves', hidle', hnone'⟩ :=
    Progress.ready_opened o' n' cases'.length start' script s'
  obtain ⟨q', k', hq', hqs', hqlog', hresult', hlog'⟩ := runCases_each plan device o' 0
    hgive' hids' hserves' hidle' (fun _ _ => hnone' _) hj
  obtain ⟨hagree, hlogs⟩ := runCase_agree plan device o o' k k' hq hqs hq' hqs' hqlog
    hqlog'
  refine ⟨⟨_, _, hresult, hresult', hagree⟩, ?_⟩
  rw [log?_runSuite, log?_runSuite]
  simp only [casesRun]
  rw [hlog, hlog']
  exact hlogs

/-- What comes of a registry check in a suite is what comes of it alone on a
fresh device: its status, cause, detail, duration and number of metrics, and
the headline and the details of its log. -/
theorem runSuite_isolated (o : Outlets σ) (o' : Outlets τ) (plan : Plan)
    (script : Script) (n n' : Naming) (start start' : Nat) (s : σ) (s' : τ)
    (cases : List TestCase)
    (hregistry : ∀ c ∈ cases, ∃ e : Suite.Entry, e.toCase = .ok c)
    (hids : (cases.map (·.id)).Nodup) (i : Nat) (c : TestCase)
    (hi : cases[i]? = some c) :
    let whole := runSuite o plan script.profile n cases (benchAt start script) s
    let alone := runSuite o' plan script.profile n' [c] (benchAt start' script) s'
    (∃ r r', whole.summary.results[i]? = some r ∧ alone.summary.results = [r'] ∧
      r.id = c.id ∧ r'.id = c.id ∧ r.status = r'.status ∧ r.cause = r'.cause ∧
      r.detail = r'.detail ∧ r.durationMs = r'.durationMs ∧ r.metrics = r'.metrics) ∧
    (whole.progress.outbox.log? (c.id.key plan.abi)).map
        (fun log => (log.headline, log.details)) =
      (alone.progress.outbox.log? (c.id.key plan.abi)).map
        (fun log => (log.headline, log.details)) := by
  intro whole alone
  have hgive : ∀ c ∈ cases, c.GivesBack := by
    intro c' hc'
    obtain ⟨e, he⟩ := hregistry c' hc'
    exact e.toCase_givesBack he
  have hmem : c ∈ cases := List.mem_of_getElem? hi
  have hgive' : ∀ c' ∈ [c], c'.GivesBack := by simpa using hgive c hmem
  have hids' : ([c].map (·.id)).Nodup := by simp
  obtain ⟨⟨r, r', hr, hr', hagree⟩, hlogs⟩ := runSuite_agree o o' plan script.profile
    script n n' start start' s s' hgive hids hgive' hids' hi (j := 0) rfl
  have hid : r.id = c.id := by
    have hids := congrArg (·[i]?) (ids_runSuite o plan script.profile n cases
      (benchAt start script) s)
    simpa [hr, hi] using hids
  simp only [TestResult.undated, TestResult.mk.injEq, true_and] at hagree
  obtain ⟨hsame, hstatus, hcause, hdetail, hduration, hmetrics⟩ := hagree
  refine ⟨⟨r, r', hr, ?_, hid, hsame ▸ hid, hstatus, hcause, hdetail, hduration,
    hmetrics⟩, ?_⟩
  · have hlength := congrArg List.length (ids_runSuite o' plan script.profile n' [c]
      (benchAt start' script) s')
    simp only [List.length_map, List.length_singleton] at hlength
    obtain ⟨x, hx⟩ := List.length_eq_one_iff.1 hlength
    rw [hx] at hr'
    simp only [List.getElem?_cons_zero, Option.some.injEq] at hr'
    exact hr' ▸ hx
  · have hcontent := congrArg
      (Option.map fun log : Log => (log.headline, log.details)) hlogs
    simp only [Option.map_map] at hcontent
    exact hcontent

/-- Looks for any service and accepts the first answer. -/
def search (method : String) (h : Report.IsPart method) : TestCase :=
  (Check.Discovery.ofQuery .all).toCase ⟨"Discovery", method, by decide, h⟩ .empty

/-- A device that can look for services and finds one after a while. -/
def slowDevice : Script :=
  ⟨⟨"slow", "arm64", .ofList [.peerToPeer, .serviceDiscovery]⟩,
    [⟨.discoverServices, none, none,
      [⟨700, .serviceFound .upnp "printer" "lobby" []⟩, ⟨900, .discoveryComplete⟩]⟩]⟩

/-- Keeps batches and drops states. -/
def inMemory : Outlets Report.Mailbox :=
  ⟨Report.Collector.inMemory, fun _ m => m⟩

theorem runSuite_isolated_two_searches :
    let first := search "first" (by decide)
    let second := search "second" (by decide)
    let plan : Plan := ⟨"cts", "arm64", .standard⟩
    let whole := runSuite inMemory plan slowDevice.profile ⟨"suite", "batch", 0⟩
      [first, second] (benchAt 0 slowDevice) .empty
    let alone := runSuite inMemory plan slowDevice.profile ⟨"other", "batch", 0⟩
      [second] (benchAt 5 slowDevice) .empty
    (∃ r r', whole.summary.results[1]? = some r ∧ alone.summary.results = [r'] ∧
      r.id = second.id ∧ r'.id = second.id ∧ r.status = r'.status ∧
      r.cause = r'.cause ∧ r.detail = r'.detail ∧ r.durationMs = r'.durationMs ∧
      r.metrics = r'.metrics) ∧
    (whole.progress.outbox.log? (second.id.key plan.abi)).map
        (fun log => (log.headline, log.details)) =
      (alone.progress.outbox.log? (second.id.key plan.abi)).map
        (fun log => (log.headline, log.details)) := by
  intro first second plan whole alone
  have hregistry : ∀ c ∈ [first, second], ∃ e : Suite.Entry, e.toCase = .ok c := by
    have hentry (method : String) (h : Report.IsPart method) :
        ∃ e : Suite.Entry, e.toCase = .ok (search method h) :=
      ⟨⟨⟨"Discovery", method, by decide, h⟩, .serviceDiscovery, .empty,
        .object [("query", .string "all")]⟩, rfl⟩
    intro c hc
    simp only [List.mem_cons, List.not_mem_nil, or_false] at hc
    rcases hc with rfl | rfl
    · exact hentry "first" _
    · exact hentry "second" _
  have hids : ([first, second].map (·.id)).Nodup := by decide
  exact runSuite_isolated inMemory inMemory plan slowDevice ⟨"suite", "batch", 0⟩
    ⟨"other", "batch", 0⟩ 0 5 .empty .empty [first, second] hregistry hids 1 second rfl

end Compliance.Run
