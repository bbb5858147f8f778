import Compliance.Number.Arithmetic

/-!
# Durations

A duration has whole seconds and nanoseconds.  As a floating-point number it is
reckoned in seconds first, so that its milliseconds are rounded more than once.
-/

namespace Compliance.Time

open Compliance.Number (Binary64)

structure Duration where
  seconds : Nat
  /-- Nanoseconds beyond the seconds, less than 10 ^ 9. -/
  nanos : Nat
  deriving DecidableEq

namespace Duration

def ofMillis (ms : Nat) : Duration :=
  ⟨ms / 1000, ms % 1000 * 1000000⟩

def asSeconds (d : Duration) : Binary64 :=
  (Binary64.ofNat d.seconds).add
    ((Binary64.ofNat d.nanos).div (Binary64.ofNat 1000000000))

def asMillis (d : Duration) : Binary64 :=
  d.asSeconds.mul (Binary64.ofNat 1000)

example : (ofMillis 40).asMillis = Binary64.ofNat 40 := by decide +kernel

/-- A duration need not come to its own number of milliseconds. -/
example : (ofMillis 1001).asMillis =
    Binary64.ofDecimal false 10009999999999999 (-13) := by decide +kernel

end Duration

end Compliance.Time
