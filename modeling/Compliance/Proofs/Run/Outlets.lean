import Compliance.Proofs.Report.Delivery
import Compliance.Proofs.Run.Case

/-!
# Runs with other outlets

Up to its flush a run writes to its outlets and reads nothing back, so it comes
to the same with any others.  And nothing changes when a record is kept of the
calls of the collector.
-/

namespace Compliance.Run

open Compliance.Check (Bench TestCase)
open Compliance.Device (Profile)
open Compliance.Report (Call Outbox Stamp)

variable {σ τ : Type}

/-- The progress of a run over another store. -/
def Progress.mapStore (f : σ → τ) (p : Progress σ) : Progress τ :=
  ⟨p.bench, p.outbox, p.state, f p.store, p.journal⟩

theorem attempt_mapStore (f : σ → τ) (plan : Plan) (device : Profile) (index : Nat)
    (c : TestCase) (p : Progress σ) :
    attempt plan device index c (p.mapStore f) =
      ((attempt plan device index c p).1, (attempt plan device index c p).2.mapStore f) := by
  have hbench : (p.mapStore f).bench = p.bench := rfl
  have henter : ((p.mapStore f).enter index c .prepare).bench = p.bench := rfl
  have henter' : (p.enter index c .prepare).bench = p.bench := rfl
  unfold attempt
  rw [hbench]
  cases p.bench.token.isCancelled with
  | true => rfl
  | false =>
      cases device.missing c.requires with
      | cons m ms => rfl
      | nil =>
          simp only [Bool.false_eq_true, ↓reduceIte, henter, henter']
          cases c.prepare.run p.bench with
          | mk ending b => cases ending <;> rfl

/-- Snapshots do to one store what they do to the other. -/
def Outlets.RecordsAs (o : Outlets σ) (o' : Outlets τ) (f : σ → τ) : Prop :=
  ∀ state s, f (o.recordState state s) = o'.recordState state (f s)

namespace Outlets.RecordsAs

variable {o : Outlets σ} {o' : Outlets τ} {f : σ → τ} (h : o.RecordsAs o' f)

include h

theorem record (p : Progress σ) : (p.mapStore f).record o' = (p.record o).mapStore f := by
  simp only [Progress.record, Progress.mapStore, h p.state p.store]

theorem advance (target : Stage) (p : Progress σ) :
    (p.mapStore f).advance o' target = (p.advance o target).mapStore f := by
  unfold Progress.advance
  have hsame : (p.mapStore f).state.goTo target (p.mapStore f).now =
      p.state.goTo target p.now := rfl
  rw [hsame]
  cases p.state.goTo target p.now with
  | ok state => exact h.record (p.setState state)
  | error e => rfl

theorem runCase (plan : Plan) (device : Profile) (index : Nat) (c : TestCase)
    (p : Progress σ) :
    runCase o' plan device index c (p.mapStore f) =
      ((runCase o plan device index c p).1, (runCase o plan device index c p).2.mapStore f) := by
  have hattempt := attempt_mapStore f plan device index c
    (p.setBench { p.bench with session := none })
  have hset : (p.mapStore f).setBench { (p.mapStore f).bench with session := none } =
      (p.setBench { p.bench with session := none }).mapStore f := rfl
  unfold Run.runCase
  rw [hset, hattempt]
  generalize attempt plan device index c
    (p.setBench { p.bench with session := none }) = out
  obtain ⟨r, q⟩ := out
  have hbench : ((q.mapStore f).enter index c .cleanup).bench =
      (q.enter index c .cleanup).bench := rfl
  simp only [hbench]
  generalize c.cleanup.run (q.enter index c .cleanup).bench = cleaned
  obtain ⟨panic?, b⟩ := cleaned
  let cleanedUp := (q.enter index c .cleanup).setBench b
  exact Prod.ext rfl (h.record (cleanedUp.setState (cleanedUp.state.complete cleanedUp.now)))

theorem runCases (plan : Plan) (device : Profile) (index : Nat) (cases : List TestCase)
    (p : Progress σ) :
    runCases o' plan device index cases (p.mapStore f) =
      ((runCases o plan device index cases p).1,
        (runCases o plan device index cases p).2.mapStore f) := by
  induction cases generalizing index p with
  | nil => rfl
  | cons c rest ih => simp only [Run.runCases, h.runCase, ih]

variable (plan : Plan) (device : Profile) (n : Naming) (cases : List TestCase) (b : Bench)
  (s : σ)

theorem casesRun : casesRun o' plan device n cases b (f s) =
    ((casesRun o plan device n cases b s).1,
      (casesRun o plan device n cases b s).2.mapStore f) := by
  have hopened : Progress.opened o' n cases.length b (f s) =
      (Progress.opened o n cases.length b s).mapStore f := by
    unfold Progress.opened
    rw [← h.advance, ← h.advance]
    rfl
  unfold Run.casesRun
  rw [hopened, h.runCases]

theorem reporting : reporting o' plan device n cases b (f s) =
    (reporting o plan device n cases b s).mapStore f := by
  unfold Run.reporting
  rw [h.casesRun, h.advance]

end Outlets.RecordsAs

/-! ## Any other outlets -/

/-- Outlets that keep nothing. -/
def Outlets.none : Outlets Unit :=
  ⟨.refusing "", fun _ s => s⟩

theorem Outlets.recordsAs_none (o : Outlets σ) : o.RecordsAs .none fun _ => () :=
  fun _ _ => rfl

section Others

variable (o : Outlets σ) (o' : Outlets τ) (plan : Plan) (device : Profile) (n : Naming)
  (cases : List TestCase) (b : Bench) (s : σ) (s' : τ)

/-- Neither the outlets nor what is in their stores has an influence on the
cases. -/
theorem results_casesRun :
    (casesRun o' plan device n cases b s').1 = (casesRun o plan device n cases b s).1 := by
  have hleft := o.recordsAs_none.casesRun plan device n cases b s
  have hright := o'.recordsAs_none.casesRun plan device n cases b s'
  exact (congrArg Prod.fst hright).symm.trans (congrArg Prod.fst hleft)

theorem mapStore_reporting : (reporting o' plan device n cases b s').mapStore (fun _ => ()) =
    (reporting o plan device n cases b s).mapStore fun _ => () := by
  rw [← o.recordsAs_none.reporting, ← o'.recordsAs_none.reporting]

theorem outbox_reporting : (reporting o' plan device n cases b s').outbox =
    (reporting o plan device n cases b s).outbox :=
  congrArg Progress.outbox (mapStore_reporting o o' plan device n cases b s s')

theorem bench_reporting : (reporting o' plan device n cases b s').bench =
    (reporting o plan device n cases b s).bench :=
  congrArg Progress.bench (mapStore_reporting o o' plan device n cases b s s')

end Others

/-! ## A record of the calls -/

/-- The outlets with a record of the calls of the collector. -/
def Outlets.logged (o : Outlets σ) : Outlets (σ × List Call) where
  collector := o.collector.logged
  recordState state s := (o.recordState state s.1, s.2)

theorem Outlets.recordsAs_logged (o : Outlets σ) : o.logged.RecordsAs o Prod.fst :=
  fun _ _ => rfl

/-- A flush comes to the same whether its call is recorded or not. -/
theorem flush_logged (box : Outbox) (c : Report.Collector σ) (stamp : Stamp)
    (s : σ × List Call) : box.flush c stamp s.1 =
      ((box.flush c.logged stamp s).1, (box.flush c.logged stamp s).2.1,
        (box.flush c.logged stamp s).2.2.1) := by
  by_cases hnil : box.unsent = []
  · rw [Outbox.flush_of_nil c stamp s.1 hnil, Outbox.flush_of_nil c.logged stamp s hnil]
  · cases hc : c.accept (.assemble stamp.batchId stamp.now box.unsent) s.1 with
    | mk answer t =>
        have hlogged : c.logged.accept (.assemble stamp.batchId stamp.now box.unsent) s =
            (answer, t, s.2 ++ [(.assemble stamp.batchId stamp.now box.unsent, answer)]) := by
          simp [Report.Collector.logged, hc]
        cases answer with
        | error e =>
            rw [Outbox.flush_of_error c stamp s.1 hnil hc,
              Outbox.flush_of_error c.logged stamp s hnil hlogged]
        | ok a =>
            rw [Outbox.flush_of_ok c stamp s.1 hnil hc,
              Outbox.flush_of_ok c.logged stamp s hnil hlogged]

end Compliance.Run
