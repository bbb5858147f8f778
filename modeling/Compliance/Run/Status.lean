/-!
# Statuses and exit codes

Statuses are ordered by severity, and a suite is as bad as its worst test.  Exit
codes are stable; cancellation goes before a failed delivery, and that before
the status of the tests.
-/

namespace Compliance.Run

inductive Status where
  | skipped
  | pass
  | fail
  | error
  deriving DecidableEq

namespace Status

def wire : Status → String
  | skipped => "skipped"
  | pass => "pass"
  | fail => "fail"
  | error => "error"

def cases : List (String × Status) :=
  [skipped, pass, fail, error].map fun s => (s.wire, s)

def severity : Status → Nat
  | skipped => 0
  | pass => 1
  | fail => 2
  | error => 3

def isFailure : Status → Bool
  | fail => true
  | error => true
  | _ => false

/-- The more severe of two. -/
def worse (a b : Status) : Status :=
  if a.severity ≤ b.severity then b else a

/-- The worst status of a suite; an empty suite passes. -/
def worst : List Status → Status
  | [] => pass
  | s :: rest => rest.foldl worse s

@[simp] theorem severity_worse (a b : Status) :
    (a.worse b).severity = max a.severity b.severity := by
  unfold worse
  split <;> omega

end Status

inductive ExitCode where
  | success
  | testFailed
  | testError
  | transport
  | config
  | cancelled
  deriving DecidableEq

namespace ExitCode

def value : ExitCode → Nat
  | success => 0
  | testFailed => 10
  | testError => 20
  | transport => 30
  | config => 40
  | cancelled => 80

def ofValue? (code : Int) : Option ExitCode :=
  [success, testFailed, testError, transport, config, cancelled].find? fun c =>
    (c.value : Int) = code

def ofStatus : Status → ExitCode
  | .skipped => success
  | .pass => success
  | .fail => testFailed
  | .error => testError

def ofSuite (s : Status) (isCancelled transportFailed : Bool) : ExitCode :=
  if isCancelled then cancelled
  else if transportFailed then transport
  else ofStatus s

end ExitCode

end Compliance.Run
