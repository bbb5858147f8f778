import Compliance.Number.Decimal

/-!
# Deadlines

Every check runs under a deadline of its own.  Waiting is cut into slices no
longer than the poll interval, and the last slice ends at the deadline.  All
times are in milliseconds.
-/

namespace Compliance.Check

structure Timeouts where
  /-- The longest a check may run. -/
  test : Nat
  /-- The longest single wait. -/
  poll : Nat
  deriving DecidableEq

inductive TimeoutError where
  | testOutOfBounds (value : Nat)
  | pollOutOfBounds (value : Nat)
  deriving DecidableEq

def TimeoutError.message : TimeoutError → String
  | testOutOfBounds value =>
      "timeout_ms must be in (0, 3600000], got " ++ Number.decimal value
  | pollOutOfBounds value =>
      "poll_interval_ms must be in (0, 1000], got " ++ Number.decimal value

namespace Timeouts

def maxTest : Nat := 3600000

def maxPoll : Nat := 1000

def standard : Timeouts :=
  ⟨30000, 50⟩

/-- Both times are positive and within their bounds. -/
def validate (t : Timeouts) : Except TimeoutError Unit :=
  if t.test = 0 ∨ maxTest < t.test then .error (.testOutOfBounds t.test)
  else if t.poll = 0 ∨ maxPoll < t.poll then .error (.pollOutOfBounds t.poll)
  else .ok ()

theorem validate_eq_ok_iff {t : Timeouts} :
    t.validate = .ok () ↔
      (0 < t.test ∧ t.test ≤ maxTest) ∧ 0 < t.poll ∧ t.poll ≤ maxPoll := by
  unfold validate
  split
  · simp; omega
  · split
    · simp; omega
    · simp; omega

end Timeouts

structure Deadline where
  timeouts : Timeouts
  start : Nat
  deriving DecidableEq

namespace Deadline

def time (d : Deadline) : Nat :=
  d.start + d.timeouts.test

def isExpired (d : Deadline) (now : Nat) : Bool :=
  d.time ≤ now

def remaining (d : Deadline) (now : Nat) : Nat :=
  d.time - now

def elapsed (d : Deadline) (now : Nat) : Nat :=
  now - d.start

/-- The next slice of waiting. -/
def nextWait (d : Deadline) (now : Nat) : Nat :=
  min (d.remaining now) d.timeouts.poll

end Deadline

end Compliance.Check
