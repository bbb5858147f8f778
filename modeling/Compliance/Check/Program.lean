import Compliance.Check.Await
import Compliance.Report.Log

/-!
# Test code

What test code can do, as programs, and how they run.  Preparation acquires
hardware and may refuse; a check talks to the device over the one session that
was acquired; cleanup gives the session back.  Any of them may break down.
-/

namespace Compliance.Check

open Compliance.Device (Capability CapabilitySet Platform Request Session)
open Compliance.Report (Log Metric TestId)
open Compliance.Time (Timestamp)

/-- The world of a test: the clock in milliseconds, the token of the suite, the
device, and the session the test holds. -/
structure Bench where
  clock : Nat
  token : CancelToken
  platform : Platform
  session : Option Session
  deriving DecidableEq

namespace Bench

def now (b : Bench) : Timestamp :=
  .ofMillis b.clock

def cancel (b : Bench) : Bench :=
  { b with token := b.token.cancel }

def sleep (b : Bench) (ms : Nat) : Bench :=
  { b with clock := b.clock + ms }

/-- Closes the session and lets go of it. -/
def release (b : Bench) : Bench :=
  match b.session with
  | none => b
  | some s => { b with session := none, platform := (s.close b.platform).2 }

/-- Acquires a session in place of the one that was held. -/
def acquire (b : Bench) (c : Capability) : Except SkipReason Bench :=
  match b.platform.acquire c with
  | .error e => .error (.ofPlatform e)
  | .ok (s, p) =>
      .ok { { b with platform := p }.release with session := some s }

end Bench

/-- How a piece of test code ended. -/
inductive Ending (ε α : Type) where
  | returned (a : α)
  | stopped (e : ε)
  | panicked (p : Panic)
  deriving DecidableEq

inductive Preparation where
  | ready
  | skip (r : SkipReason)
  | panic (p : Panic)
  | cancel (next : Preparation)
  | sleep (ms : Nat) (next : Preparation)
  | acquire (c : Capability) (next : Preparation)

def Preparation.run : Preparation → Bench → Ending SkipReason Unit × Bench
  | ready, b => (.returned (), b)
  | skip r, b => (.stopped r, b)
  | panic p, b => (.panicked p, b)
  | cancel next, b => next.run b.cancel
  | sleep ms next, b => next.run (b.sleep ms)
  | acquire c next, b =>
      match b.acquire c with
      | .error r => (.stopped r, b)
      | .ok b => next.run b

inductive Cleanup where
  | done
  | panic (p : Panic)
  | cancel (next : Cleanup)
  | sleep (ms : Nat) (next : Cleanup)
  | release (next : Cleanup)

/-- Cleanup has no answer; a panic is all it can report. -/
def Cleanup.run : Cleanup → Bench → Option Panic × Bench
  | done, b => (none, b)
  | panic p, b => (some p, b)
  | cancel next, b => next.run b.cancel
  | sleep ms next, b => next.run (b.sleep ms)
  | release next, b => next.run b.release

/-- What a check can see of its own run. -/
structure View where
  test : TestId
  hasSession : Bool
  isCancelled : Bool
  isExpired : Bool
  remaining : Nat
  recorded : Nat

/-- A check with a result in `α`.  Whatever fails ends it. -/
inductive Program (α : Type) where
  | pure (a : α)
  | fail (f : Failure)
  | panic (p : Panic)
  | cancel (next : Program α)
  | sleep (ms : Nat) (next : Program α)
  | look (next : View → Program α)
  | record (m : Metric) (next : Program α)
  | headline (m : Metric) (next : Program α)
  | send (r : Request) (next : Program α)
  | gather (enough : List Sighting → Bool) (next : List Sighting → Program α)
  | release (next : Program α)

/-- What a check is given: its test, its deadline and its log. -/
structure Context where
  test : TestId
  deadline : Deadline
  log : Log

def Context.start (test : TestId) (abi : String) (timeouts : Timeouts)
    (b : Bench) : Context :=
  ⟨test, ⟨timeouts, b.clock⟩, Log.start (test.key abi) b.now⟩

def Context.view (c : Context) (b : Bench) : View where
  test := c.test
  hasSession := b.session.isSome
  isCancelled := b.token.isCancelled
  isExpired := c.deadline.isExpired b.clock
  remaining := c.deadline.remaining b.clock
  recorded := c.log.size

/-- How a check ended, and what it left behind. -/
structure Finish (α : Type) where
  ending : Ending Failure α
  log : Log
  bench : Bench

namespace Program

variable {α β : Type}

def noSession : Failure :=
  ⟨.platform, "no session"⟩

def run : Program α → Context → Bench → Finish α
  | pure a, c, b => ⟨.returned a, c.log, b⟩
  | fail f, c, b => ⟨.stopped f, c.log, b⟩
  | panic p, c, b => ⟨.panicked p, c.log, b⟩
  | cancel next, c, b => next.run c b.cancel
  | sleep ms next, c, b => next.run c (b.sleep ms)
  | look next, c, b => (next (c.view b)).run c b
  | record m next, c, b =>
      match c.log.add m with
      | .error e => ⟨.stopped (.ofMetric e), c.log, b⟩
      | .ok log => next.run { c with log := log } b
  | headline m next, c, b =>
      match c.log.setHeadline m with
      | .error e => ⟨.stopped (.ofMetric e), c.log, b⟩
      | .ok log => next.run { c with log := log } b
  | send r next, c, b =>
      match b.session with
      | none => ⟨.stopped noSession, c.log, b⟩
      | some s =>
          match s.send r b.clock b.platform with
          | .error e => ⟨.stopped (.ofPlatform e), c.log, b⟩
          | .ok (s, p) =>
              next.run c { b with session := some s, platform := p }
  | gather enough next, c, b =>
      match b.session with
      | none => ⟨.stopped noSession, c.log, b⟩
      | some s =>
          match Check.gather enough c.deadline b.token [] s b.clock with
          | (.error f, s, now) =>
              ⟨.stopped f, c.log, { b with session := some s, clock := now }⟩
          | (.ok seen, s, now) =>
              (next seen).run c { b with session := some s, clock := now }
  | release next, c, b =>
      match b.session with
      | none => ⟨.stopped noSession, c.log, b⟩
      | some s =>
          let (s, p) := s.close b.platform
          next.run c { b with session := some s, platform := p }

/-- The program followed by another that goes on with its result. -/
def bind : Program α → (α → Program β) → Program β
  | pure a, g => g a
  | fail f, _ => fail f
  | panic p, _ => panic p
  | cancel next, g => cancel (next.bind g)
  | sleep ms next, g => sleep ms (next.bind g)
  | look next, g => look fun v => (next v).bind g
  | record m next, g => record m (next.bind g)
  | headline m next, g => headline m (next.bind g)
  | send r next, g => send r (next.bind g)
  | gather enough next, g => gather enough fun seen => (next seen).bind g
  | release next, g => release (next.bind g)

instance : Monad Program where
  pure := pure
  bind := bind

/-- Waits for one event. -/
def awaitOne (next : Sighting → Program α) : Program α :=
  gather (fun _ => true) fun seen =>
    match seen.getLast? with
    | some s => next s
    | none => fail noSession

end Program

/-- One compliance check. -/
structure TestCase where
  id : TestId
  requires : CapabilitySet
  prepare : Preparation
  execute : Program Outcome
  cleanup : Cleanup

end Compliance.Check
