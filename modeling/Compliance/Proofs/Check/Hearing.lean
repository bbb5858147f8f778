import Mathlib.Tactic.Common
import Compliance.Proofs.Check.Orderly

/-!
# What successive waits hear

The waits over a session give events, one after the other, and fail in the end.
A gathering takes events until they are enough; otherwise the failure is its own.
-/

namespace Compliance.Check

open Compliance.Device (Event Session)

/-- The events of successive waits, and the failure of the last. -/
inductive Hears (d : Deadline) (t : CancelToken) :
    Session → Nat → List Sighting → Failure → Prop where
  | ended {s s' : Session} {now now' : Nat} {f : Failure}
      (h : awaitEvent d t s now = (.error f, s', now')) : Hears d t s now [] f
  | heard {s s' : Session} {now now' : Nat} {e : Event} {es : List Sighting} {f : Failure}
      (h : awaitEvent d t s now = (.ok e, s', now')) (rest : Hears d t s' now' es f) :
      Hears d t s now (⟨e, d.elapsed now'⟩ :: es) f

section Hearing

variable {d : Deadline} {t : CancelToken} {s s' : Session} {now now' : Nat}
  {es : List Sighting} {f : Failure}

theorem exists_of_awaitEvent_ok {e : Event} (h : awaitEvent d t s now = (.ok e, s', now')) :
    ∃ due rest, s.queue = due :: rest ∧ e = due.event ∧ s' = { s with queue := rest } := by
  fun_induction awaitEvent d t s now with
  | case1 | case2 => cases h
  | case3 now _ _ e' s'' now'' hnext =>
      cases h
      obtain ⟨due, rest, hqueue, -, he, hs, -⟩ := Session.next_eq_some hnext
      exact ⟨due, rest, hqueue, he, hs⟩
  | case4 now _ _ _ _ _ ih => exact ih h

theorem of_awaitEvent_error (h : awaitEvent d t s now = (.error f, s', now')) :
    s' = s ∧ (f.cause = .timedOut ∨ f.cause = .cancelled) := by
  fun_induction awaitEvent d t s now with
  | case1 =>
      cases h
      exact ⟨rfl, Or.inr rfl⟩
  | case2 =>
      cases h
      exact ⟨rfl, Or.inl rfl⟩
  | case3 => cases h
  | case4 now _ _ _ _ _ ih => exact ih h

namespace Hears

theorem cause (h : Hears d t s now es f) : f.cause = .timedOut ∨ f.cause = .cancelled := by
  induction h with
  | ended h => exact (of_awaitEvent_error h).2
  | heard _ _ ih => exact ih

variable (h : Hears d t s now es f) (enough : List Sighting → Bool) (seen : List Sighting)

include h

end Hears

end Hearing

end Compliance.Check
