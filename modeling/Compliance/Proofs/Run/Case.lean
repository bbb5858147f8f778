import Mathlib.Tactic.Common
import Compliance.Run.Runner

/-!
# The course of one case

Before its cleanup a case takes one of five courses.  Each is decided by the
token, by what the device lacks and by how preparation ends; everything proved
about a case goes through this distinction.
-/

namespace Compliance.Run

open Compliance.Check (Bench Context TestCase)
open Compliance.Device (Profile)

variable {σ : Type}

/-- What everything of a case but its cleanup comes to. -/
inductive Course (plan : Plan) (device : Profile) (index : Nat) (c : TestCase)
    (p : Progress σ) : TestResult × Progress σ → Prop where
  | cancelled (h : p.bench.token.isCancelled = true) :
      Course plan device index c p
        (.failed c.id (spanFrom p.bench.clock p.bench) cancelledBefore, p)
  | lacking (h : p.bench.token.isCancelled = false)
      (hm : device.missing c.requires ≠ []) :
      Course plan device index c p
        (.skipped c.id (spanFrom p.bench.clock p.bench)
          (.missing (device.missing c.requires)), p)
  | refused (h : p.bench.token.isCancelled = false)
      (hm : device.missing c.requires = []) (r : Check.SkipReason) (b : Bench)
      (hp : c.prepare.run p.bench = (.stopped r, b)) :
      Course plan device index c p
        (.skipped c.id (spanFrom p.bench.clock b) r,
          (p.enter index c .prepare).setBench b)
  | brokenDown (h : p.bench.token.isCancelled = false)
      (hm : device.missing c.requires = []) (q : Check.Panic) (b : Bench)
      (hp : c.prepare.run p.bench = (.panicked q, b)) :
      Course plan device index c p
        (.failed c.id (spanFrom p.bench.clock b)
            (panicked ("prepare panicked: " ++ q.message)),
          (p.enter index c .prepare).setBench b)
  | executed (h : p.bench.token.isCancelled = false)
      (hm : device.missing c.requires = []) (b : Bench)
      (hp : c.prepare.run p.bench = (.returned (), b)) :
      Course plan device index c p
        (execute plan c p.bench.clock
          (((p.enter index c .prepare).setBench b).enter index c .execute))

theorem attempt_course (plan : Plan) (device : Profile) (index : Nat)
    (c : TestCase) (p : Progress σ) :
    Course plan device index c p (attempt plan device index c p) := by
  unfold attempt
  cases h : p.bench.token.isCancelled with
  | true => simpa [h] using Course.cancelled h
  | false =>
      cases hm : device.missing c.requires with
      | cons m ms =>
          have hne : device.missing c.requires ≠ [] := by simp [hm]
          have hcourse : Course plan device index c p _ := .lacking h hne
          rw [hm] at hcourse
          simpa [h] using hcourse
      | nil =>
          have hbench : (p.enter index c .prepare).bench = p.bench := rfl
          simp only [Bool.false_eq_true, ↓reduceIte, hbench]
          cases hp : c.prepare.run p.bench with
          | mk ending b =>
              cases ending with
              | returned _ => exact .executed h hm b hp
              | stopped r => exact .refused h hm r b hp
              | panicked q => exact .brokenDown h hm q b hp

/-! ## What the steps of a run leave alone -/

namespace Progress

variable (p : Progress σ)

@[simp] theorem bench_setState (s : State) : (p.setState s).bench = p.bench := rfl

@[simp] theorem state_setState (s : State) : (p.setState s).state = s := rfl

@[simp] theorem outbox_setState (s : State) : (p.setState s).outbox = p.outbox := rfl

@[simp] theorem store_setState (s : State) : (p.setState s).store = p.store := rfl

@[simp] theorem journal_setState (s : State) :
    (p.setState s).journal = p.journal ++ [.changed s] := rfl

@[simp] theorem bench_setBench (b : Bench) : (p.setBench b).bench = b := rfl

@[simp] theorem state_setBench (b : Bench) : (p.setBench b).state = p.state := rfl

@[simp] theorem outbox_setBench (b : Bench) : (p.setBench b).outbox = p.outbox := rfl

@[simp] theorem store_setBench (b : Bench) : (p.setBench b).store = p.store := rfl

@[simp] theorem journal_setBench (b : Bench) :
    (p.setBench b).journal = p.journal := rfl

variable (o : Outlets σ)

@[simp] theorem bench_record : (p.record o).bench = p.bench := rfl

@[simp] theorem state_record : (p.record o).state = p.state := rfl

@[simp] theorem outbox_record : (p.record o).outbox = p.outbox := rfl

@[simp] theorem store_record :
    (p.record o).store = o.recordState p.state p.store := rfl

@[simp] theorem journal_record :
    (p.record o).journal = p.journal ++ [.recorded p.state] := rfl

variable (index : Nat) (c : TestCase) (phase : Phase)

@[simp] theorem bench_enter : (p.enter index c phase).bench = p.bench := rfl

@[simp] theorem outbox_enter : (p.enter index c phase).outbox = p.outbox := rfl

@[simp] theorem store_enter : (p.enter index c phase).store = p.store := rfl

@[simp] theorem state_enter : (p.enter index c phase).state =
    p.state.enter ⟨index, c.id.text, phase⟩ p.now := rfl

@[simp] theorem journal_enter : (p.enter index c phase).journal =
    p.journal ++ [.changed (p.state.enter ⟨index, c.id.text, phase⟩ p.now),
      .called index phase] := by
  simp [enter, setState]

variable (target : Stage)

@[simp] theorem bench_advance : (p.advance o target).bench = p.bench := by
  unfold advance
  split <;> rfl

@[simp] theorem outbox_advance : (p.advance o target).outbox = p.outbox := by
  unfold advance
  split <;> rfl

/-- The suite moves on to the next stage and hands out a snapshot. -/
theorem advance_of_canGoTo {target : Stage}
    (h : p.state.stage.canGoTo target = true) :
    p.advance o target = (p.setState ({ p.state with
      stage := target, current := none }.touch p.now)).record o := by
  simp [advance, State.goTo, h]

/-- The run in front of its first case. -/
def opened (n : Naming) (count : Nat) (b : Bench) (s : σ) : Progress σ :=
  let first := State.start n.suiteId count n.firstSeq b.now
  ((⟨b, .empty, first, s, [.changed first]⟩ : Progress σ).advance o
    .preparing).advance o .running

variable (n : Naming) (count : Nat) (b : Bench) (s : σ)

@[simp] theorem bench_opened : (opened o n count b s).bench = b := by
  simp [opened]

@[simp] theorem outbox_opened : (opened o n count b s).outbox = .empty := by
  simp [opened]

end Progress

@[simp] theorem bench_execute (plan : Plan) (c : TestCase) (start : Nat)
    (p : Progress σ) : (execute plan c start p).2.bench =
      (c.execute.run (Context.start c.id plan.abi plan.timeouts p.bench)
        p.bench).bench := rfl

@[simp] theorem state_execute (plan : Plan) (c : TestCase) (start : Nat)
    (p : Progress σ) : (execute plan c start p).2.state = p.state := rfl

@[simp] theorem journal_execute (plan : Plan) (c : TestCase) (start : Nat)
    (p : Progress σ) : (execute plan c start p).2.journal = p.journal := rfl

@[simp] theorem store_execute (plan : Plan) (c : TestCase) (start : Nat)
    (p : Progress σ) : (execute plan c start p).2.store = p.store := rfl

theorem id_execute (plan : Plan) (c : TestCase) (start : Nat) (p : Progress σ) :
    (execute plan c start p).1.id = c.id := by
  unfold execute
  simp only [TestResult.withMetrics]
  split <;> rfl

theorem status_execute_ne_skipped (plan : Plan) (c : TestCase) (start : Nat) (p : Progress σ) :
    (execute plan c start p).1.status ≠ .skipped := by
  unfold execute
  simp only [TestResult.withMetrics]
  split
  · simp [TestResult.passed]
  · simp only [TestResult.failed]
    split <;> simp

theorem id_attempt (plan : Plan) (device : Profile) (index : Nat) (c : TestCase)
    (p : Progress σ) : (attempt plan device index c p).1.id = c.id := by
  have hcourse := attempt_course plan device index c p
  generalize attempt plan device index c p = out at hcourse ⊢
  cases hcourse with
  | cancelled | lacking | refused | brokenDown => rfl
  | executed => exact id_execute plan c _ _

theorem id_afterCleanup {c : TestCase} {start : Nat} {b : Bench} {r : TestResult}
    {panic? : Option Check.Panic} (h : r.id = c.id) :
    (afterCleanup c start b r panic?).id = c.id := by
  cases panic? with
  | none => exact h
  | some q =>
      simp only [afterCleanup]
      split
      · exact h
      · rfl

theorem metrics_afterCleanup (c : TestCase) (start : Nat) (b : Bench) (r : TestResult)
    (panic? : Option Check.Panic) : (afterCleanup c start b r panic?).metrics = r.metrics := by
  cases panic? with
  | none => rfl
  | some q =>
      simp only [afterCleanup]
      split <;> rfl

/-! ## What frames the cases -/

section Frame

variable (o : Outlets σ) (plan : Plan) (device : Profile) (n : Naming)
  (cases : List TestCase) (b : Bench) (s : σ)

/-- The results and the run behind its last case. -/
def casesRun : List TestResult × Progress σ :=
  runCases o plan device 0 cases (Progress.opened o n cases.length b s)

/-- The run as it is when its reports are flushed. -/
def reporting : Progress σ :=
  (casesRun o plan device n cases b s).2.advance o .reporting

/-- The flush at the end of a run. -/
def finalFlush : Except Report.ReportError Report.FlushReceipt × Report.Outbox × σ :=
  let p := reporting o plan device n cases b s
  p.outbox.flush o.collector ⟨n.batchId, p.now⟩ p.store

theorem results_runSuite : (runSuite o plan device n cases b s).summary.results =
    (casesRun o plan device n cases b s).1 := rfl

theorem progress_runSuite : (runSuite o plan device n cases b s).progress =
    ({ reporting o plan device n cases b s with
      outbox := (finalFlush o plan device n cases b s).2.1
      store := (finalFlush o plan device n cases b s).2.2 } : Progress σ).advance o
        .done := rfl

end Frame

end Compliance.Run
