import Mathlib.Tactic.Common
import Compliance.Check.Program

/-!
# A bench at a later time

Test code sees times only as differences.  On a bench whose clock is ahead and
whose device has seen other requests before, it ends in the same way and
leaves the same bench, again ahead by as much.
-/

namespace Compliance.Device

/-- The event comes so many milliseconds later. -/
def Due.later (k : Nat) (d : Due) : Due :=
  ⟨k + d.time, d.event⟩

def Session.later (k : Nat) (s : Session) : Session :=
  { s with queue := s.queue.map (Due.later k) }

/-- The platform has seen other requests before. -/
def Platform.behind (rs : List Request) (p : Platform) : Platform :=
  { p with requests := rs ++ p.requests }

theorem enqueue_later (k : Nat) (d : Due) (queue : List Due) :
    enqueue (d.later k) (queue.map (Due.later k)) =
      (enqueue d queue).map (Due.later k) := by
  induction queue with
  | nil => rfl
  | cons e rest ih =>
      have htime : (d.later k).time < (e.later k).time ↔ d.time < e.time := by
        simp [Due.later]
      simp only [List.map_cons, enqueue, htime, ih]
      split <;> rfl

theorem enqueueAll_later (k : Nat) (ds queue : List Due) :
    enqueueAll (ds.map (Due.later k)) (queue.map (Due.later k)) =
      (enqueueAll ds queue).map (Due.later k) := by
  induction ds generalizing queue with
  | nil => rfl
  | cons d rest ih =>
      simp only [enqueueAll, List.map_cons, List.foldl_cons] at ih ⊢
      rw [enqueue_later, ih]

theorem Platform.answersTo_later (k : Nat) (rs : List Request) (p : Platform)
    (r : Request) (now : Nat) :
    (p.behind rs).answersTo r (k + now) = (p.answersTo r now).map (Due.later k) := by
  simp only [answersTo, behind, List.map_map]
  apply List.map_congr_left
  intro s _
  simp [Due.later, Nat.add_assoc]

theorem Session.send_later (k : Nat) (rs : List Request) (s : Session) (r : Request)
    (now : Nat) (p : Platform) :
    (s.later k).send r (k + now) (p.behind rs) =
      (s.send r now p).map fun out => (out.1.later k, out.2.behind rs) := by
  unfold send
  by_cases h : s.isOpen = true
  · have hl : (s.later k).isOpen = true := h
    simp only [h, hl, Bool.not_true, Bool.false_eq_true, ↓reduceIte, Except.map]
    rw [Platform.answersTo_later]
    simp [later, enqueueAll_later, Platform.behind]
  · have hl : ¬ (s.later k).isOpen = true := h
    simp [h, hl, Except.map]

theorem Session.next_later (k : Nat) (s : Session) (wait now : Nat) :
    (s.later k).next wait (k + now) =
      ((s.next wait now).1, (s.next wait now).2.1.later k,
        k + (s.next wait now).2.2) := by
  unfold next
  cases hq : s.queue with
  | nil =>
      have hl : (s.later k).queue = [] := by simp [later, hq]
      simp [hl, Nat.add_assoc]
  | cons d rest =>
      have hl : (s.later k).queue = d.later k :: rest.map (Due.later k) := by
        simp [later, hq]
      have htime : (d.later k).time ≤ k + now + wait ↔ d.time ≤ now + wait := by
        simp only [Due.later]
        omega
      simp only [hl, htime]
      split
      · simp only [later, Due.later, Prod.mk.injEq, true_and]
        omega
      · simp [Nat.add_assoc]

theorem Session.close_later (k : Nat) (rs : List Request) (s : Session)
    (p : Platform) :
    (s.later k).close (p.behind rs) =
      ((s.close p).1.later k, (s.close p).2.behind rs) := by
  unfold close
  have hl : (s.later k).isOpen = s.isOpen := rfl
  rw [hl]
  split <;> rfl

theorem Platform.acquire_behind (rs : List Request) (k : Nat) (p : Platform)
    (c : Capability) :
    (p.behind rs).acquire c =
      (p.acquire c).map fun out => (out.1.later k, out.2.behind rs) := by
  have ha : (p.behind rs).available = p.available := rfl
  have hh : (p.behind rs).isHeld c = p.isHeld c := rfl
  unfold acquire
  rw [ha, hh]
  split
  · rfl
  · split <;> rfl

end Compliance.Device

namespace Compliance.Check

open Compliance.Device (Request Session)
open Compliance.Report (Log)
open Compliance.Time (Timestamp)

def Deadline.later (k : Nat) (d : Deadline) : Deadline :=
  { d with start := k + d.start }

section Deadline

variable (k : Nat) (d : Deadline) (now : Nat)

@[simp] theorem Deadline.isExpired_later :
    (d.later k).isExpired (k + now) = d.isExpired now := by
  have htime : (d.later k).time ≤ k + now ↔ d.time ≤ now := by
    simp only [later, time]
    omega
  exact decide_eq_decide.2 htime

@[simp] theorem Deadline.remaining_later :
    (d.later k).remaining (k + now) = d.remaining now := by
  simp only [remaining, later, time]
  omega

@[simp] theorem Deadline.elapsed_later :
    (d.later k).elapsed (k + now) = d.elapsed now := by
  simp only [elapsed, later]
  omega

@[simp] theorem slice_later : slice (d.later k) (k + now) = slice d now := by
  simp only [slice, Deadline.remaining_later]
  rfl

end Deadline

theorem awaitEvent_later (k : Nat) (d : Deadline) (t : CancelToken) (s : Session)
    (now : Nat) :
    awaitEvent (d.later k) t (s.later k) (k + now) =
      ((awaitEvent d t s now).1, (awaitEvent d t s now).2.1.later k,
        k + (awaitEvent d t s now).2.2) := by
  fun_induction awaitEvent d t s now with
  | case1 now h =>
      unfold awaitEvent
      simp [h]
  | case2 now h hexp =>
      have hfailure : noCallback (d.later k) (s.later k) = noCallback d s := rfl
      unfold awaitEvent
      simp [h, hexp, hfailure]
  | case3 now h hexp e s' now' hnext =>
      unfold awaitEvent
      simp [h, hexp, Session.next_later, hnext]
  | case4 now h hexp s' now' hnext ih =>
      rw [awaitEvent.eq_def (d.later k)]
      simp only [h, Bool.false_eq_true, ↓reduceIte, Deadline.isExpired_later, hexp,
        slice_later, Session.next_later, hnext]
      rw [Nat.add_assoc, ih]

theorem gather_later (enough : List Sighting → Bool) (k : Nat) (d : Deadline)
    (t : CancelToken) (seen : List Sighting) (s : Session) (now : Nat) :
    gather enough (d.later k) t seen (s.later k) (k + now) =
      ((gather enough d t seen s now).1, (gather enough d t seen s now).2.1.later k,
        k + (gather enough d t seen s now).2.2) := by
  fun_induction gather enough d t seen s now with
  | case1 seen s now f s' now' hawait =>
      have hl := awaitEvent_later k d t s now
      rw [hawait] at hl
      exact gather_of_error hl
  | case2 seen s now e s' now' hawait seen' hen =>
      have hl := awaitEvent_later k d t s now
      rw [hawait] at hl
      rw [gather_of_ok hl, Deadline.elapsed_later, if_pos hen]
  | case3 seen s now e s' now' hawait seen' hen ih =>
      have hl := awaitEvent_later k d t s now
      rw [hawait] at hl
      rw [gather_of_ok hl, Deadline.elapsed_later, if_neg hen]
      exact ih

/-! ## Test code on a later bench -/

/-- The same bench, with the clock ahead and other requests behind it. -/
def Bench.later (k : Nat) (rs : List Request) (b : Bench) : Bench where
  clock := k + b.clock
  token := b.token
  platform := b.platform.behind rs
  session := b.session.map (Session.later k)

end Compliance.Check

namespace Compliance.Report

open Compliance.Time (Timestamp)

/-- The same log, started at another time. -/
def Log.dated (t : Timestamp) (log : Log) : Log :=
  { log with createdAt := t }

theorem Log.add_dated (t : Timestamp) (log : Log) (m : Metric) :
    (log.dated t).add m = (log.add m).map (Log.dated t) := by
  unfold Log.add
  have hdetail : (log.dated t).detail? m.name = log.detail? m.name := rfl
  rw [hdetail]
  split
  · rfl
  · split <;> rfl

theorem Log.setHeadline_dated (t : Timestamp) (log : Log) (m : Metric) :
    (log.dated t).setHeadline m = (log.setHeadline m).map (Log.dated t) := by
  unfold Log.setHeadline
  have hheadline : (log.dated t).headline = log.headline := rfl
  rw [hheadline]
  split
  · rfl
  · split <;> rfl

end Compliance.Report

namespace Compliance.Check

open Compliance.Device (Capability Platform Request Session)
open Compliance.Report (Log TestId)
open Compliance.Time (Timestamp)

section Bench

variable (k : Nat) (rs : List Request) (b : Bench)

@[simp] theorem Bench.clock_later : (b.later k rs).clock = k + b.clock := rfl

@[simp] theorem Bench.token_later : (b.later k rs).token = b.token := rfl

@[simp] theorem Bench.platform_later :
    (b.later k rs).platform = b.platform.behind rs := rfl

@[simp] theorem Bench.session_later :
    (b.later k rs).session = b.session.map (Session.later k) := rfl

theorem Bench.sleep_later (ms : Nat) :
    (b.later k rs).sleep ms = (b.sleep ms).later k rs := by
  simp [Bench.sleep, Bench.later, Nat.add_assoc]

theorem Bench.release_later :
    (b.later k rs).release = b.release.later k rs := by
  unfold Bench.release
  cases hs : b.session with
  | none => simp [hs]
  | some s =>
      simp only [Bench.session_later, hs, Option.map_some, Bench.platform_later,
        Session.close_later]
      rfl

theorem Bench.acquire_later (c : Capability) :
    (b.later k rs).acquire c = (b.acquire c).map (Bench.later k rs) := by
  unfold Bench.acquire
  rw [Bench.platform_later, Platform.acquire_behind rs k]
  cases hacquire : b.platform.acquire c with
  | error e => rfl
  | ok out =>
      have hset : { b.later k rs with platform := out.2.behind rs } =
          ({ b with platform := out.2 } : Bench).later k rs := rfl
      simp only [Except.map, hset, Bench.release_later]
      rfl

end Bench

theorem Preparation.run_later (k : Nat) (rs : List Request) (p : Preparation)
    (b : Bench) :
    p.run (b.later k rs) = ((p.run b).1, (p.run b).2.later k rs) := by
  induction p generalizing b with
  | ready | skip r | panic q => rfl
  | cancel next ih => exact ih b.cancel
  | sleep ms next ih =>
      simp only [run, Bench.sleep_later]
      exact ih (b.sleep ms)
  | acquire c next ih =>
      simp only [run, Bench.acquire_later]
      cases b.acquire c with
      | error r => rfl
      | ok b' => exact ih b'

theorem Cleanup.run_later (k : Nat) (rs : List Request) (c : Cleanup)
    (b : Bench) :
    c.run (b.later k rs) = ((c.run b).1, (c.run b).2.later k rs) := by
  induction c generalizing b with
  | done | panic q => rfl
  | cancel next ih => exact ih b.cancel
  | sleep ms next ih =>
      simp only [run, Bench.sleep_later]
      exact ih (b.sleep ms)
  | release next ih =>
      simp only [run, Bench.release_later]
      exact ih b.release

/-- The same test started later, with a log started at that time. -/
def Context.later (k : Nat) (t : Timestamp) (c : Context) : Context :=
  ⟨c.test, c.deadline.later k, c.log.dated t⟩

def Finish.later {α : Type} (k : Nat) (rs : List Request) (t : Timestamp)
    (f : Finish α) : Finish α :=
  ⟨f.ending, f.log.dated t, f.bench.later k rs⟩

theorem Context.view_later (k : Nat) (rs : List Request) (t : Timestamp)
    (c : Context) (b : Bench) :
    (c.later k t).view (b.later k rs) = c.view b := by
  simp [Context.view, Context.later, Log.dated, Log.size]

theorem Context.start_later (k : Nat) (rs : List Request) (test : TestId)
    (abi : String) (timeouts : Timeouts) (b : Bench) :
    Context.start test abi timeouts (b.later k rs) =
      (Context.start test abi timeouts b).later k (b.later k rs).now := rfl

/-- A check sees no absolute time and no request but its own, so it goes the
same way on a later bench. -/
theorem Program.run_later {α : Type} (k : Nat) (rs : List Request) (t : Timestamp)
    (p : Program α) (c : Context) (b : Bench) :
    p.run (c.later k t) (b.later k rs) = (p.run c b).later k rs t := by
  induction p generalizing c b with
  | pure a | fail f | panic q => rfl
  | cancel next ih => exact ih c b.cancel
  | sleep ms next ih =>
      simp only [run, Bench.sleep_later]
      exact ih c (b.sleep ms)
  | look next ih =>
      simp only [run, Context.view_later]
      exact ih (c.view b) c b
  | record m next ih =>
      have hadd : (c.later k t).log.add m = (c.log.add m).map (Log.dated t) :=
        Log.add_dated t c.log m
      simp only [run, hadd]
      cases c.log.add m with
      | error e => rfl
      | ok log => exact ih { c with log := log } b
  | headline m next ih =>
      have hset : (c.later k t).log.setHeadline m =
          (c.log.setHeadline m).map (Log.dated t) :=
        Log.setHeadline_dated t c.log m
      simp only [run, hset]
      cases c.log.setHeadline m with
      | error e => rfl
      | ok log => exact ih { c with log := log } b
  | send r next ih =>
      cases hs : b.session with
      | none => simp only [run, Bench.session_later, hs, Option.map_none]; rfl
      | some s =>
          simp only [run, Bench.session_later, hs, Option.map_some,
            Bench.clock_later, Bench.platform_later, Session.send_later]
          cases s.send r b.clock b.platform with
          | error e => rfl
          | ok out =>
              exact ih c { b with session := some out.1, platform := out.2 }
  | gather enough next ih =>
      cases hs : b.session with
      | none => simp only [run, Bench.session_later, hs, Option.map_none]; rfl
      | some s =>
          have hgather := gather_later enough k c.deadline b.token [] s b.clock
          have hdeadline : (c.later k t).deadline = c.deadline.later k := rfl
          simp only [run, Bench.session_later, hs, Option.map_some,
            Bench.clock_later, Bench.token_later, hdeadline, hgather]
          generalize Check.gather enough c.deadline b.token [] s b.clock = out
          obtain ⟨answer, s', now⟩ := out
          cases answer with
          | error f => rfl
          | ok seen =>
              exact ih seen c { b with session := some s', clock := now }
  | release next ih =>
      cases hs : b.session with
      | none => simp only [run, Bench.session_later, hs, Option.map_none]; rfl
      | some s =>
          simp only [run, Bench.session_later, hs, Option.map_some,
            Bench.platform_later, Session.close_later]
          exact ih c
            { b with session := some (s.close b.platform).1,
                     platform := (s.close b.platform).2 }

end Compliance.Check
