/-!
# Cancellation

A token that is set once and stays set.  The first signal sets it, the second
asks for an immediate exit, later ones are ignored; the counter of signals has
eight bits and wraps.
-/

namespace Compliance.Check

inductive SignalAction where
  | initiateCancellation
  | immediateExit
  | ignore
  deriving DecidableEq

structure CancelToken where
  isCancelled : Bool
  signals : UInt8
  deriving DecidableEq

namespace CancelToken

def fresh : CancelToken :=
  ⟨false, 0⟩

def cancel (t : CancelToken) : CancelToken :=
  { t with isCancelled := true }

def signal (t : CancelToken) : SignalAction × CancelToken :=
  let counted := { t with signals := t.signals + 1 }
  if t.signals = 0 then (.initiateCancellation, counted.cancel)
  else if t.signals = 1 then (.immediateExit, counted)
  else (.ignore, counted)

@[simp] theorem isCancelled_cancel (t : CancelToken) :
    t.cancel.isCancelled = true := rfl

end CancelToken

end Compliance.Check
