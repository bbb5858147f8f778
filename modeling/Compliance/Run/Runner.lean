import Compliance.Check.Program
import Compliance.Run.State
import Compliance.Run.Summary

/-!
# Running a suite

Cases run one after the other.  A case is prepared, executed and cleaned up;
cleanup is called on every path, and no ending of a case stops the suite.  At
the end the reports are flushed to a collector, and failed deliveries can be
retried without running anything again.
-/

namespace Compliance.Run

open Compliance.Check (Bench Cleanup Context Ending Failure Finish Outcome Panic
  Preparation Program TestCase Timeouts)
open Compliance.Device (Profile)
open Compliance.Report (Collector FlushReceipt Log Outbox ReportError Stamp)
open Compliance.Time (Timestamp)

/-- The settings of a run. -/
structure Plan where
  suiteName : String
  /-- The ABI reports are filed under. -/
  abi : String
  timeouts : Timeouts
  deriving DecidableEq

/-- Where a run leaves its reports and the snapshots of its state. -/
structure Outlets (σ : Type) where
  collector : Collector σ
  recordState : State → σ → σ

/-- What happened during a run, in order. -/
inductive Happening where
  | changed (s : State)
  | recorded (s : State)
  | called (index : Nat) (phase : Phase)
  deriving DecidableEq

/-- A run in progress. -/
structure Progress (σ : Type) where
  bench : Bench
  outbox : Outbox
  state : State
  store : σ
  journal : List Happening

namespace Progress

variable {σ : Type}

def now (p : Progress σ) : Timestamp :=
  p.bench.now

def setState (p : Progress σ) (s : State) : Progress σ :=
  { p with state := s, journal := p.journal ++ [.changed s] }

/-- Hands a snapshot of the state to the outlet. -/
def record (o : Outlets σ) (p : Progress σ) : Progress σ :=
  { p with
    store := o.recordState p.state p.store
    journal := p.journal ++ [.recorded p.state] }

/-- Moves the suite on, if it may go there. -/
def advance (o : Outlets σ) (target : Stage) (p : Progress σ) : Progress σ :=
  match p.state.goTo target p.now with
  | .ok s => (p.setState s).record o
  | .error _ => p

def enter (index : Nat) (c : TestCase) (phase : Phase) (p : Progress σ) :
    Progress σ :=
  let p := p.setState (p.state.enter ⟨index, c.id.text, phase⟩ p.now)
  { p with journal := p.journal ++ [.called index phase] }

def setBench (p : Progress σ) (b : Bench) : Progress σ :=
  { p with bench := b }

end Progress

/-- The span of a test from its start to now. -/
def spanFrom (start : Nat) (b : Bench) : Span :=
  ⟨.ofMillis start, b.clock - start⟩

def cancelledBefore : Failure :=
  ⟨.cancelled, "suite cancelled before test started"⟩

def panicked (detail : String) : Failure :=
  ⟨.panicked, detail⟩

def arrivedLate (t : Timeouts) : Failure :=
  ⟨.timedOut, "result arrived after the " ++ Number.decimal t.test ++
    " ms deadline"⟩

/-- What an execution comes to.  A pass that comes after the deadline is a
failure. -/
def verdict (t : Timeouts) (expired : Bool) :
    Ending Failure Outcome → Except Failure Outcome
  | .returned o => if expired then .error (arrivedLate t) else .ok o
  | .stopped f => .error f
  | .panicked p => .error (panicked p.message)

/-- A log with something in it goes to the outbox. -/
def fileLog (o : Outbox) (log : Log) : Outbox :=
  if log.isEmpty then o else o.submit log

variable {σ : Type}

/-- Executes a prepared case under a fresh deadline. -/
def execute (plan : Plan) (c : TestCase) (start : Nat) (p : Progress σ) :
    TestResult × Progress σ :=
  let context := Context.start c.id plan.abi plan.timeouts p.bench
  let f := c.execute.run context p.bench
  let expired := context.deadline.isExpired f.bench.clock
  let span := spanFrom start f.bench
  let result := match verdict plan.timeouts expired f.ending with
    | .ok o => TestResult.passed c.id span o
    | .error e => TestResult.failed c.id span e
  (result.withMetrics f.log.size,
    { p with bench := f.bench, outbox := fileLog p.outbox f.log })

/-- Everything of a case but its cleanup. -/
def attempt (plan : Plan) (device : Profile) (index : Nat) (c : TestCase)
    (p : Progress σ) : TestResult × Progress σ :=
  let start := p.bench.clock
  if p.bench.token.isCancelled then
    (.failed c.id (spanFrom start p.bench) cancelledBefore, p)
  else
    match device.missing c.requires with
    | m :: ms =>
        (.skipped c.id (spanFrom start p.bench) (.missing (m :: ms)), p)
    | [] =>
        let p := p.enter index c .prepare
        match c.prepare.run p.bench with
        | (.returned (), b) =>
            execute plan c start ((p.setBench b).enter index c .execute)
        | (.stopped r, b) =>
            (.skipped c.id (spanFrom start b) r, p.setBench b)
        | (.panicked q, b) =>
            (.failed c.id (spanFrom start b)
              (panicked ("prepare panicked: " ++ q.message)), p.setBench b)

/-- The result after cleanup.  A panic there spoils a pass or a skip, but hides
no failure. -/
def afterCleanup (c : TestCase) (start : Nat) (b : Bench) (r : TestResult) :
    Option Panic → TestResult
  | none => r
  | some q =>
      if r.status.isFailure then r
      else
        (TestResult.failed c.id (spanFrom start b)
          (panicked ("cleanup panicked: " ++ q.message))).withMetrics r.metrics

/-- One case from start to end. -/
def runCase (o : Outlets σ) (plan : Plan) (device : Profile) (index : Nat)
    (c : TestCase) (p : Progress σ) : TestResult × Progress σ :=
  let start := p.bench.clock
  let (r, p) := attempt plan device index c
    (p.setBench { p.bench with session := none })
  let p := p.enter index c .cleanup
  let (panic?, b) := c.cleanup.run p.bench
  let p := p.setBench b
  let r := afterCleanup c start b r panic?
  (r, (p.setState (p.state.complete p.now)).record o)

/-- The cases from an index on. -/
def runCases (o : Outlets σ) (plan : Plan) (device : Profile) (index : Nat) :
    List TestCase → Progress σ → List TestResult × Progress σ
  | [], p => ([], p)
  | c :: rest, p =>
      let (r, p) := runCase o plan device index c p
      let (rs, p) := runCases o plan device (index + 1) rest p
      (r :: rs, p)

/-- The names a run is given: its suite id, the id of its batch, and the first
sequence number of its state. -/
structure Naming where
  suiteId : String
  batchId : String
  firstSeq : Nat

/-- What a finished suite leaves behind. -/
structure SuiteRun (σ : Type) where
  summary : Summary
  progress : Progress σ

/-- Runs every case and flushes the reports. -/
def runSuite (o : Outlets σ) (plan : Plan) (device : Profile) (n : Naming)
    (cases : List TestCase) (b : Bench) (s : σ) : SuiteRun σ :=
  let start := b.clock
  let first := State.start n.suiteId cases.length n.firstSeq b.now
  let p : Progress σ := ⟨b, .empty, first, s, [.changed first]⟩
  let p := (p.advance o .preparing).advance o .running
  let (results, p) := runCases o plan device 0 cases p
  let p := p.advance o .reporting
  let (flushed, outbox, store) :=
    p.outbox.flush o.collector ⟨n.batchId, p.now⟩ p.store
  let delivery := Delivery.none.afterFlush outbox.unsentCount flushed
  let p := { p with outbox := outbox, store := store }.advance o .done
  let summary := (Summary.ofResults ⟨n.suiteId, plan.suiteName, plan.abi⟩
    results p.bench.token.isCancelled (p.bench.clock - start) p.now).withReport
      delivery
  ⟨summary, p⟩

/-- Sends again what was not delivered. -/
def SuiteRun.retryFlush (r : SuiteRun σ) (c : Collector σ) (batchId : String) :
    Except ReportError FlushReceipt × SuiteRun σ :=
  let p := r.progress
  let (flushed, outbox, store) := p.outbox.flush c ⟨batchId, p.now⟩ p.store
  let delivery := r.summary.report.afterFlush outbox.unsentCount flushed
  (flushed, ⟨r.summary.withReport delivery,
    { p with outbox := outbox, store := store }⟩)

end Compliance.Run
