import Compliance.Check.Program

/-!
# Scripted checks

Checks whose behaviour is given in advance, for trying out a suite.
-/

namespace Compliance.Check

open Compliance.Device (Capability CapabilitySet)
open Compliance.Number (Binary64)
open Compliance.Report (Metric TestId)

inductive Behavior where
  | pass (metrics : List (String × Binary64))
  | fail (metrics : List (String × Binary64)) (f : Failure)
  | skip (r : SkipReason)
  /-- Waits for an event that the script may never send. -/
  | hang (c : Capability)
  /-- Takes this many milliseconds. -/
  | late (ms : Nat)
  | panic
  | duplicateMetric (name : String)

namespace Behavior

def prepare : Behavior → Preparation
  | skip r => .skip r
  | hang c => .acquire c .ready
  | _ => .ready

def recordAll (metrics : List (String × Binary64)) (next : Program Outcome) :
    Program Outcome :=
  metrics.foldr (fun (name, x) next =>
    .record ⟨name, .single x, .none, .neutral⟩ next) next

def counted (name : String) (n : Nat) : Metric :=
  ⟨name, .single (.ofNat n), .count, .neutral⟩

def execute : Behavior → Program Outcome
  | pass metrics => recordAll metrics (.pure .pass)
  | fail metrics f => recordAll metrics (.fail f)
  | skip _ => .pure .pass
  | hang _ =>
      .look fun v =>
        if v.hasSession then
          .awaitOne fun s => .fail ⟨.unexpectedResponse, s.event.describe⟩
        else .fail ⟨.platform, "mock session not open"⟩
  | late ms => .sleep ms (.pure (.noting "finished late"))
  | panic => .panic (.saying "mock case panicked")
  | duplicateMetric name =>
      .record (counted name 1) (.record (counted name 2) (.pure .pass))

def toCase (b : Behavior) (id : TestId) (requires : CapabilitySet) :
    TestCase where
  id := id
  requires := requires
  prepare := b.prepare
  execute := b.execute
  cleanup := .release .done

end Behavior

end Compliance.Check
