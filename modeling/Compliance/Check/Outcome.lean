import Compliance.Device.Session
import Compliance.Report.Error

/-!
# Outcomes of a check

A check passes, fails for a cause, or is skipped.  Some causes are errors of
the check itself; the others are faults of the device.
-/

namespace Compliance.Check

open Compliance.Device (Capability PlatformError)
open Compliance.Report (ReportError)

/-- A passed check, with a detail to show if there is one. -/
structure Outcome where
  detail : Option String
  deriving DecidableEq

def Outcome.pass : Outcome :=
  ⟨none⟩

def Outcome.noting (detail : String) : Outcome :=
  ⟨some detail⟩

inductive FailureCause where
  | timedOut
  | protocolMismatch
  | unexpectedResponse
  | cancelled
  | platform
  | duplicateMetric
  | invalidMetric
  | panicked
  deriving DecidableEq

namespace FailureCause

/-- The fault lies in the check, not in the device. -/
def isError : FailureCause → Bool
  | duplicateMetric => true
  | invalidMetric => true
  | panicked => true
  | _ => false

def wire : FailureCause → String
  | timedOut => "TIMED_OUT"
  | protocolMismatch => "PROTOCOL_MISMATCH"
  | unexpectedResponse => "UNEXPECTED_RESPONSE"
  | cancelled => "CANCELLED"
  | platform => "PLATFORM"
  | duplicateMetric => "DUPLICATE_METRIC"
  | invalidMetric => "INVALID_METRIC"
  | panicked => "PANICKED"

def cases : List (String × FailureCause) :=
  [timedOut, protocolMismatch, unexpectedResponse, cancelled, platform,
    duplicateMetric, invalidMetric, panicked].map fun c => (c.wire, c)

def describe : FailureCause → String
  | timedOut => "Timed out"
  | protocolMismatch => "Protocol mismatch"
  | unexpectedResponse => "Unexpected response"
  | cancelled => "Cancelled"
  | platform => "Platform error"
  | duplicateMetric => "Duplicate metric"
  | invalidMetric => "Invalid metric"
  | panicked => "Test panicked"

end FailureCause

structure Failure where
  cause : FailureCause
  detail : String
  deriving DecidableEq

namespace Failure

def message (f : Failure) : String :=
  f.cause.describe ++ ": " ++ f.detail

def ofPlatform (e : PlatformError) : Failure :=
  ⟨.platform, e.message⟩

/-- A metric that the log refused. -/
def ofMetric (e : ReportError) : Failure :=
  match e with
  | .duplicateMetric _ _ => ⟨.duplicateMetric, e.message⟩
  | _ => ⟨.invalidMetric, e.message⟩

end Failure

inductive SkipReason where
  | missing (cs : List Capability)
  | unavailable (detail : String)
  deriving DecidableEq

namespace SkipReason

def message : SkipReason → String
  | missing cs => "missing capabilities: " ++ ", ".intercalate (cs.map (·.name))
  | unavailable detail => "hardware unavailable: " ++ detail

def ofPlatform : PlatformError → SkipReason
  | .unavailable c => missing [c]
  | e => unavailable e.message

end SkipReason

/-- What a piece of test code was carrying when it broke down. -/
inductive Panic where
  | saying (text : String)
  | other
  deriving DecidableEq

def Panic.message : Panic → String
  | saying text => text
  | other => "panic with non-string payload"

end Compliance.Check
