import Mathlib.Logic.Relation
import Compliance.Check.Program

/-!
# Checks step by step

A check goes on in steps, one for each piece of its code, until it halts.  What
every step keeps is there when it halts, so a property of runs comes down to
one case for each step and one for each way to halt.
-/

namespace Compliance.Check.Program

open Compliance.Device (Platform Request Session)
open Compliance.Report (Log Metric ReportError)

variable {α : Type}

/-- Where a check stands: the code that is left, what it was given, and its
bench. -/
structure Point (α : Type) where
  rest : Program α
  context : Context
  bench : Bench

/-- What comes of a check that goes on from here. -/
def Point.finish (p : Point α) : Finish α :=
  p.rest.run p.context p.bench

/-- A step after which a check goes on. -/
inductive Step : Point α → Point α → Prop where
  | cancel (next : Program α) (c : Context) (b : Bench) :
      Step ⟨.cancel next, c, b⟩ ⟨next, c, b.cancel⟩
  | sleep (ms : Nat) (next : Program α) (c : Context) (b : Bench) :
      Step ⟨.sleep ms next, c, b⟩ ⟨next, c, b.sleep ms⟩
  | look (next : View → Program α) (c : Context) (b : Bench) :
      Step ⟨.look next, c, b⟩ ⟨next (c.view b), c, b⟩
  | record {m : Metric} (next : Program α) {c : Context} (b : Bench) {log : Log}
      (h : c.log.add m = .ok log) :
      Step ⟨.record m next, c, b⟩ ⟨next, { c with log := log }, b⟩
  | headline {m : Metric} (next : Program α) {c : Context} (b : Bench) {log : Log}
      (h : c.log.setHeadline m = .ok log) :
      Step ⟨.headline m next, c, b⟩ ⟨next, { c with log := log }, b⟩
  | send {r : Request} (next : Program α) (c : Context) {b : Bench} {s s' : Session}
      {p : Platform} (hs : b.session = some s)
      (h : s.send r b.clock b.platform = .ok (s', p)) :
      Step ⟨.send r next, c, b⟩ ⟨next, c, { b with session := some s', platform := p }⟩
  | gather {enough : List Sighting → Bool} (next : List Sighting → Program α) {c : Context}
      {b : Bench} {s s' : Session} {seen : List Sighting} {now : Nat}
      (hs : b.session = some s)
      (h : Check.gather enough c.deadline b.token [] s b.clock = (.ok seen, s', now)) :
      Step ⟨.gather enough next, c, b⟩
        ⟨next seen, c, { b with session := some s', clock := now }⟩
  | release (next : Program α) (c : Context) {b : Bench} {s : Session}
      (hs : b.session = some s) :
      Step ⟨.release next, c, b⟩ ⟨next, c, { b with
        session := some (s.close b.platform).1
        platform := (s.close b.platform).2 }⟩

/-- Code that cannot go on without a session. -/
def NeedsSession : Program α → Prop
  | send _ _ | gather _ _ | release _ => True
  | _ => False

/-- How a check comes to its end. -/
inductive Halt : Point α → Finish α → Prop where
  | returned (a : α) (c : Context) (b : Bench) :
      Halt ⟨.pure a, c, b⟩ ⟨.returned a, c.log, b⟩
  | failed (f : Failure) (c : Context) (b : Bench) :
      Halt ⟨.fail f, c, b⟩ ⟨.stopped f, c.log, b⟩
  | panicked (q : Panic) (c : Context) (b : Bench) :
      Halt ⟨.panic q, c, b⟩ ⟨.panicked q, c.log, b⟩
  | record {m : Metric} (next : Program α) {c : Context} (b : Bench) {e : ReportError}
      (h : c.log.add m = .error e) :
      Halt ⟨.record m next, c, b⟩ ⟨.stopped (.ofMetric e), c.log, b⟩
  | headline {m : Metric} (next : Program α) {c : Context} (b : Bench) {e : ReportError}
      (h : c.log.setHeadline m = .error e) :
      Halt ⟨.headline m next, c, b⟩ ⟨.stopped (.ofMetric e), c.log, b⟩
  | adrift {code : Program α} (hcode : code.NeedsSession) (c : Context) {b : Bench}
      (hs : b.session = none) : Halt ⟨code, c, b⟩ ⟨.stopped noSession, c.log, b⟩
  | send {r : Request} (next : Program α) (c : Context) {b : Bench} {s : Session}
      {e : Device.PlatformError} (hs : b.session = some s)
      (h : s.send r b.clock b.platform = .error e) :
      Halt ⟨.send r next, c, b⟩ ⟨.stopped (.ofPlatform e), c.log, b⟩
  | gather {enough : List Sighting → Bool} (next : List Sighting → Program α) {c : Context}
      {b : Bench} {s s' : Session} {f : Failure} {now : Nat} (hs : b.session = some s)
      (h : Check.gather enough c.deadline b.token [] s b.clock = (.error f, s', now)) :
      Halt ⟨.gather enough next, c, b⟩
        ⟨.stopped f, c.log, { b with session := some s', clock := now }⟩

variable {p q : Point α}

theorem Step.finish_eq (h : Step p q) : p.finish = q.finish := by
  cases h with
  | cancel | sleep | look => rfl
  | record next b h | headline next b h => simp only [Point.finish, run, h]
  | send next c hs h | gather next hs h => simp only [Point.finish, run, hs, h]
  | release next c hs => simp only [Point.finish, run, hs]

theorem Halt.log_eq {f : Finish α} (h : Halt p f) : f.log = p.context.log := by
  cases h <;> rfl

theorem step_or_halt (p : Point α) : (∃ q, Step p q) ∨ Halt p p.finish := by
  obtain ⟨code, c, b⟩ := p
  unfold Point.finish
  cases code with
  | pure a => exact Or.inr (.returned a c b)
  | fail f => exact Or.inr (.failed f c b)
  | panic q => exact Or.inr (.panicked q c b)
  | cancel next => exact Or.inl ⟨_, .cancel next c b⟩
  | sleep ms next => exact Or.inl ⟨_, .sleep ms next c b⟩
  | look next => exact Or.inl ⟨_, .look next c b⟩
  | record m next =>
      cases h : c.log.add m with
      | ok log => exact Or.inl ⟨_, .record next b h⟩
      | error e => simpa only [run, h] using Or.inr (Halt.record next b h)
  | headline m next =>
      cases h : c.log.setHeadline m with
      | ok log => exact Or.inl ⟨_, .headline next b h⟩
      | error e => simpa only [run, h] using Or.inr (Halt.headline next b h)
  | send r next =>
      cases hs : b.session with
      | none => simpa only [run, hs] using Or.inr (Halt.adrift (by trivial) c hs)
      | some s =>
          cases h : s.send r b.clock b.platform with
          | ok out => exact Or.inl ⟨_, .send next c hs h⟩
          | error e => simpa only [run, hs, h] using Or.inr (Halt.send next c hs h)
  | gather enough next =>
      cases hs : b.session with
      | none => simpa only [run, hs] using Or.inr (Halt.adrift (by trivial) c hs)
      | some s =>
          cases h : Check.gather enough c.deadline b.token [] s b.clock with
          | mk answer out =>
              cases answer with
              | ok seen => exact Or.inl ⟨_, .gather next hs h⟩
              | error f => simpa only [run, hs, h] using Or.inr (Halt.gather next hs h)
  | release next =>
      cases hs : b.session with
      | none => simpa only [run, hs] using Or.inr (Halt.adrift (by trivial) c hs)
      | some s => exact Or.inl ⟨_, .release next c hs⟩

/-- No check goes on for ever. -/
theorem acc_step (p : Point α) : Acc (fun q p => Step p q) p := by
  obtain ⟨code, c, b⟩ := p
  induction code generalizing c b with
  | pure a | fail f | panic r =>
      constructor
      rintro q ⟨⟩
  | cancel next ih | sleep ms next ih | record m next ih | headline m next ih
  | send r next ih | release next ih =>
      constructor
      rintro q ⟨⟩
      all_goals exact ih _ _
  | look next ih | gather enough next ih =>
      constructor
      rintro q ⟨⟩
      all_goals exact ih _ _ _

/-- What every step keeps, and every way to halt turns into something else, is
turned into it by the run. -/
theorem finish_induction {P : Point α → Prop} {Q : Finish α → Prop}
    (hstep : ∀ p q, P p → Step p q → P q) (hhalt : ∀ p f, P p → Halt p f → Q f)
    {p : Point α} (hp : P p) : Q p.finish := by
  induction acc_step p with
  | intro p _ ih =>
      rcases step_or_halt p with ⟨q, hnext⟩ | hend
      · rw [hnext.finish_eq]
        exact ih q hnext (hstep p q hp hnext)
      · exact hhalt p _ hp hend

/-! ## Many steps -/

/-- One point is on the way of the other. -/
def Reaches : Point α → Point α → Prop :=
  Relation.ReflTransGen Step

theorem Reaches.finish_eq (h : Reaches p q) : p.finish = q.finish := by
  induction h with
  | refl => rfl
  | tail hreach hstep ih => exact ih.trans hstep.finish_eq

end Compliance.Check.Program
