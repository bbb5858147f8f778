import Compliance.Proofs.Check.Recording
import Compliance.Proofs.Run.Metrics
import Compliance.Proofs.Run.Saved

/-!
# The logs of a run

Each case files one log if it recorded anything and none otherwise, and its
result says how many metrics there were.  Until the flush all logs wait, and
everything can be written down.
-/

namespace Compliance.Run

open Compliance.Check (Bench Context TestCase)
open Compliance.Device (Profile)
open Compliance.Report (Log Outbox)

variable {σ : Type}

/-- What a case comes to, as far as it is written down. -/
structure Noted (plan : Plan) (c : TestCase) (p : Progress σ)
    (out : TestResult × Progress σ) : Prop where
  id : out.1.id = c.id
  clock : p.bench.clock ≤ out.2.bench.clock
  sound : out.1.Sound out.2.bench.clock
  filed : ∃ filed, out.2.outbox = p.outbox.file filed ∧ Fills plan.abi out.1 filed
  logs : p.outbox.Sound p.bench.clock → out.2.outbox.Sound out.2.bench.clock

theorem sound_span {r : TestResult} {start last : Nat} {b : Bench}
    (hs : r.startedAt = (spanFrom start b).startedAt)
    (hd : r.durationMs = (spanFrom start b).durationMs) (hm : r.metrics < 2 ^ 64)
    (hstart : start ≤ last) (hlast : b.clock ≤ last) : r.Sound last := by
  refine ⟨⟨start, hstart, hs⟩, ?_, hm⟩
  rw [hd]
  exact le_trans (Nat.sub_le _ _) hlast

theorem TestResult.Sound.mono {r : TestResult} {last later : Nat} (h : r.Sound last)
    (hl : last ≤ later) : r.Sound later :=
  ⟨h.started.mono hl, h.duration.trans hl, h.metrics⟩

theorem sound_fileLog {o : Outbox} {log : Log} {last : Nat} (h : o.Sound last)
    (hlog : log.Sound last) : (fileLog o log).Sound last := by
  rw [fileLog]
  split
  · exact h
  · exact h.submit hlog

section Case

variable (plan : Plan) (device : Profile)

theorem noted_execute {c : TestCase} (hc : c.execute.AtMost 2) {start : Nat}
    {p : Progress σ} (hs : start ≤ p.bench.clock) :
    Noted plan c p (execute plan c start p) := by
  let context := Context.start c.id plan.abi plan.timeouts p.bench
  have hrun := c.execute.recorded_run
    (c.execute.run context p.bench).bench.clock context p.bench
  have hsize := hc.size_run context p.bench
  have hstart : context.log.Sound (c.execute.run context p.bench).bench.clock :=
    Log.fit_start _ ⟨_, hrun.clock, rfl⟩
  have hmetrics : (execute plan c start p).1.metrics =
      (c.execute.run context p.bench).log.size := rfl
  refine ⟨id_execute plan c start p, hrun.clock, ?_, fills_execute plan c start p, ?_⟩
  · have hfew : (execute plan c start p).1.metrics < 2 ^ 64 := by
      have hzero : context.log.size = 0 := rfl
      rw [hmetrics]
      omega
    refine sound_span ?_ ?_ hfew (le_trans hs hrun.clock) (le_refl _)
    · unfold execute
      simp only [TestResult.withMetrics]
      split <;> rfl
    · unfold execute
      simp only [TestResult.withMetrics]
      split <;> rfl
  · intro hlogs
    exact sound_fileLog (hlogs.mono hrun.clock) (hrun.sound hstart)

theorem noted_attempt (index : Nat) {c : TestCase} (hc : c.execute.AtMost 2)
    (p : Progress σ) : Noted plan c p (attempt plan device index c p) := by
  have hcourse := attempt_course plan device index c p
  have hid := id_attempt plan device index c p
  have hfiled := fills_attempt plan device index c p
  generalize attempt plan device index c p = out at hcourse hid hfiled ⊢
  cases hcourse with
  | cancelled h | lacking h hm =>
      exact ⟨hid, le_refl _, sound_span rfl rfl (Nat.two_pow_pos 64) (le_refl _) (le_refl _),
        hfiled, fun hlogs => hlogs⟩
  | refused h hm r b hp | brokenDown h hm q b hp =>
      have hclock := c.prepare.clock_le_run p.bench
      rw [hp] at hclock
      exact ⟨hid, hclock, sound_span rfl rfl (Nat.two_pow_pos 64) hclock (le_refl _), hfiled,
        fun hlogs => hlogs.mono hclock⟩
  | executed h hm b hp =>
      have hclock := c.prepare.clock_le_run p.bench
      rw [hp] at hclock
      have hnoted := noted_execute plan hc
        (p := ((p.enter index c .prepare).setBench b).enter index c .execute) hclock
      exact ⟨hid, le_trans hclock hnoted.clock, hnoted.sound, hfiled,
        fun hlogs => hnoted.logs (hlogs.mono hclock)⟩

theorem noted_runCase (o : Outlets σ) (index : Nat) {c : TestCase}
    (hc : c.execute.AtMost 2) (p : Progress σ) :
    Noted plan c p (runCase o plan device index c p) := by
  have hfiled := fills_runCase plan device o index c p
  have hattempt := noted_attempt plan device index hc
    (p.setBench { p.bench with session := none })
  unfold runCase at hfiled ⊢
  generalize attempt plan device index c (p.setBench { p.bench with session := none }) = out
    at hattempt hfiled ⊢
  obtain ⟨r, q⟩ := out
  obtain ⟨hid, hclock, hsound, -, hlogs⟩ := hattempt
  have hlater := c.cleanup.clock_le_run q.bench
  simp only [Progress.bench_enter] at hfiled ⊢
  generalize c.cleanup.run q.bench = cleaned at hlater hfiled ⊢
  obtain ⟨panic?, b⟩ := cleaned
  refine ⟨id_afterCleanup hid, le_trans hclock hlater, ?_, hfiled, ?_⟩
  · unfold afterCleanup
    split
    · exact hsound.mono hlater
    · split
      · exact hsound.mono hlater
      · exact sound_span rfl rfl hsound.metrics (le_trans hclock hlater) (le_refl _)
  · intro hstart
    exact (hlogs hstart).mono hlater

end Case

/-! ## All cases -/

/-- The outbox holds the logs of these results, and all of them wait. -/
structure Tallied (abi : String) (p : Progress σ) (rs : List TestResult) : Prop where
  filed : p.outbox.Filed
  waiting : ∀ e ∈ p.outbox.slots, e.2.sent = false
  sound : p.outbox.Sound p.bench.clock
  results : ∀ r ∈ rs, r.Sound p.bench.clock
  tally : (p.outbox.logs.map fun log => (log.key, log.size)).Perm
    ((recordedIn rs).map (TestResult.entry abi))

theorem sound_runCases {plan : Plan} (device : Profile) (o : Outlets σ) (index : Nat)
    {cases : List TestCase} {p : Progress σ} {rs : List TestResult}
    (hlogs : p.outbox.Sound p.bench.clock) (hresults : ∀ r ∈ rs, r.Sound p.bench.clock)
    (hfew : ∀ c ∈ cases, c.execute.AtMost 2) :
    let out := runCases o plan device index cases p
    out.2.outbox.Sound out.2.bench.clock ∧ ∀ r ∈ rs ++ out.1, r.Sound out.2.bench.clock := by
  induction cases generalizing index p rs with
  | nil => simpa [runCases] using ⟨hlogs, hresults⟩
  | cons c rest ih =>
      have hnoted := noted_runCase plan device o index (hfew c List.mem_cons_self) p
      have hresults' : ∀ r ∈ rs ++ [(runCase o plan device index c p).1],
          r.Sound (runCase o plan device index c p).2.bench.clock := by
        intro r hr
        rcases List.mem_append.1 hr with hr | hr
        · exact (hresults r hr).mono hnoted.clock
        · rw [List.mem_singleton.1 hr]
          exact hnoted.sound
      have hrest := ih (index + 1) (hnoted.logs hlogs) hresults'
        fun c' hc' => hfew c' (List.mem_cons_of_mem c hc')
      simp only [List.append_assoc] at hrest
      exact hrest

/-! ## The whole run -/

section Suite

variable (o : Outlets σ) (plan : Plan) (device : Profile) (n : Naming)
  (cases : List TestCase) (b : Bench) (s : σ)

/-- When the reports are flushed, all logs wait and agree with the results. -/
theorem tallied_reporting (hfew : ∀ c ∈ cases, c.execute.AtMost 2)
    (hids : (cases.map (·.id)).Nodup) :
    Tallied plan.abi (reporting o plan device n cases b s)
      (casesRun o plan device n cases b s).1 := by
  have hreported := reported_reporting o plan device n cases b s
  have hids' : ((casesRun o plan device n cases b s).1.map (·.id)).Nodup := by
    rw [ids_casesRun]
    exact hids
  have hopened : (Progress.opened o n cases.length b s).outbox.Sound
      (Progress.opened o n cases.length b s).bench.clock := by
    rw [Progress.outbox_opened]
    intro e he
    cases he
  have hnone : ∀ r ∈ ([] : List TestResult),
      r.Sound (Progress.opened o n cases.length b s).bench.clock := by simp
  obtain ⟨hlogs, hresults⟩ := sound_runCases device o 0 hopened hnone hfew
  have hbench : (reporting o plan device n cases b s).bench =
      (casesRun o plan device n cases b s).2.bench := Progress.bench_advance _ o _
  have houtbox : (reporting o plan device n cases b s).outbox =
      (casesRun o plan device n cases b s).2.outbox := Progress.outbox_advance _ o _
  refine ⟨hreported.filed, hreported.waiting, ?_, ?_, hreported.tally hids'⟩
  · rw [houtbox, hbench]
    exact hlogs
  · rw [hbench]
    exact hresults

theorem bench_runSuite : (runSuite o plan device n cases b s).progress.bench =
    (reporting o plan device n cases b s).bench := by
  rw [progress_runSuite, Progress.bench_advance]

theorem outbox_runSuite : (runSuite o plan device n cases b s).progress.outbox =
    (finalFlush o plan device n cases b s).2.1 := by
  rw [progress_runSuite, Progress.outbox_advance]

theorem summary_runSuite :
    let p := (runSuite o plan device n cases b s).progress
    (runSuite o plan device n cases b s).summary =
      (Summary.ofResults ⟨n.suiteId, plan.suiteName, plan.abi⟩
        (casesRun o plan device n cases b s).1 p.bench.token.isCancelled
        (p.bench.clock - b.clock) p.now).withReport
      (Delivery.none.afterFlush (finalFlush o plan device n cases b s).2.1.unsentCount
        (finalFlush o plan device n cases b s).1) := rfl

theorem Tallied.length_logs_le {abi : String} {p : Progress σ} {rs : List TestResult}
    (h : Tallied abi p rs) : p.outbox.logs.length ≤ rs.length := by
  have hlength := h.tally.length_eq
  rw [List.length_map, List.length_map] at hlength
  rw [hlength]
  exact List.length_filter_le _ rs

/-- The logs are filed under the ABI of the run. -/
theorem Tallied.abi_eq {abi : String} {p : Progress σ} {rs : List TestResult}
    (h : Tallied abi p rs) {log : Log} (hlog : log ∈ p.outbox.logs) : log.key.abi = abi := by
  have hmem := h.tally.subset (List.mem_map_of_mem (f := fun log => (log.key, log.size)) hlog)
  obtain ⟨r, -, hr⟩ := List.mem_map.1 hmem
  have hkey : r.id.key abi = log.key := congrArg Prod.fst hr
  rw [← hkey]
  rfl

/-- A run that ends while its times can be written has a summary that can be
written. -/
theorem sound_runSuite (hfew : ∀ c ∈ cases, c.execute.AtMost 2)
    (hids : (cases.map (·.id)).Nodup) (hlength : cases.length < 2 ^ 64)
    (hclock : (reporting o plan device n cases b s).bench.clock ≤ Time.Timestamp.lastMillis) :
    (runSuite o plan device n cases b s).summary.Sound := by
  have htally := tallied_reporting o plan device n cases b s hfew hids
  have hresults : ∀ r ∈ (casesRun o plan device n cases b s).1,
      r.Sound Time.Timestamp.lastMillis := fun r hr => (htally.results r hr).mono hclock
  have hids' := congrArg List.length (ids_casesRun o plan device n cases b s)
  rw [List.length_map, List.length_map] at hids'
  have hlogs : (reporting o plan device n cases b s).outbox.unsentCount < 2 ^ 64 := by
    rw [Outbox.unsentCount, Outbox.unsent_of_waiting htally.waiting]
    exact lt_of_le_of_lt (htally.length_logs_le.trans_eq hids') hlength
  obtain ⟨hleft, hsent⟩ := Outbox.flush_counts o.collector
    ⟨n.batchId, (reporting o plan device n cases b s).now⟩
    (reporting o plan device n cases b s).store (o := (reporting o plan device n cases b s).outbox)
    rfl
  have hdelivery := Delivery.sound_none.afterFlush (lt_of_le_of_lt hleft hlogs)
    fun r hr => lt_of_le_of_lt (hsent r hr) hlogs
  rw [← bench_runSuite] at hclock
  rw [summary_runSuite]
  apply Summary.Sound.withReport _ hdelivery
  apply Summary.sound_ofResults (le_trans (Nat.sub_le _ _) hclock) hclock hresults
  rw [hids']
  exact hlength

/-! ## What the stores have in common -/

variable {o plan device n cases b s}

/-- What every snapshot keeps of a store. -/
structure Outlets.Respects (o : Outlets σ) (kept : σ → σ → Prop) : Prop where
  refl (s : σ) : kept s s
  trans {s t u : σ} : kept s t → kept t u → kept s u
  record (state : State) (s : σ) : kept s (o.recordState state s)

variable {kept : σ → σ → Prop} (h : o.Respects kept)

include h

theorem Outlets.Respects.advance (target : Stage) (p : Progress σ) :
    kept p.store (p.advance o target).store := by
  unfold Progress.advance
  split
  · exact h.record _ p.store
  · exact h.refl p.store

theorem Outlets.Respects.runCase (index : Nat) (c : TestCase) (p : Progress σ) :
    kept p.store (runCase o plan device index c p).2.store := by
  have hattempt : (attempt plan device index c
      (p.setBench { p.bench with session := none })).2.store = p.store := by
    have hcourse := attempt_course plan device index c
      (p.setBench { p.bench with session := none })
    generalize attempt plan device index c
      (p.setBench { p.bench with session := none }) = out at hcourse ⊢
    cases hcourse with
    | cancelled | lacking | refused | brokenDown | executed => rfl
  unfold Run.runCase
  generalize attempt plan device index c
    (p.setBench { p.bench with session := none }) = out at hattempt ⊢
  rw [← hattempt]
  exact h.record _ out.2.store

theorem Outlets.Respects.runCases (index : Nat) (p : Progress σ) :
    kept p.store (runCases o plan device index cases p).2.store := by
  induction cases generalizing index p with
  | nil => exact h.refl p.store
  | cons c rest ih => exact h.trans (h.runCase index c p) (ih (index + 1) _)

/-- Up to the flush, a run does nothing to its store but record states there. -/
theorem Outlets.Respects.reporting : kept s (reporting o plan device n cases b s).store := by
  have hfirst := h.advance .preparing
    (⟨b, .empty, State.start n.suiteId cases.length n.firstSeq b.now, s,
      [.changed (State.start n.suiteId cases.length n.firstSeq b.now)]⟩ : Progress σ)
  have hopened := h.trans hfirst (h.advance .running _)
  exact h.trans (h.trans hopened (h.runCases 0 _)) (h.advance .reporting _)

theorem Outlets.Respects.runSuite : kept (finalFlush o plan device n cases b s).2.2
    (runSuite o plan device n cases b s).progress.store := by
  rw [progress_runSuite]
  exact h.advance .done { Run.reporting o plan device n cases b s with
    outbox := (finalFlush o plan device n cases b s).2.1
    store := (finalFlush o plan device n cases b s).2.2 }

end Suite

end Compliance.Run
