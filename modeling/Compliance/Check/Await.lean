import Compliance.Check.CancelToken
import Compliance.Check.Deadline
import Compliance.Check.Outcome

/-!
# Waiting for events

A wait ends with the next event, or at the deadline, or at once when the suite
is cancelled.  Gathering repeats it until enough has been seen.
-/

namespace Compliance.Check

open Compliance.Device (Event Session)

def cancelledFailure : Failure :=
  ⟨.cancelled, "suite cancelled"⟩

def noCallback (d : Deadline) (s : Session) : Failure :=
  ⟨.timedOut, "no callback from " ++ s.capability.name ++ " within " ++
    Number.decimal d.timeouts.test ++ " ms"⟩

/-- A slice of waiting takes time. -/
def slice (d : Deadline) (now : Nat) : Nat :=
  min (d.remaining now) (max 1 d.timeouts.poll)

/-- Waits for the next event in slices, looking at the deadline between them.
Answers with the session as it is left and the time at the end. -/
def awaitEvent (d : Deadline) (t : CancelToken) (s : Session) (now : Nat) :
    Except Failure Event × Session × Nat :=
  if t.isCancelled then (.error cancelledFailure, s, now)
  else if d.isExpired now then (.error (noCallback d s), s, now)
  else
    match s.next (slice d now) now with
    | (some e, s, now) => (.ok e, s, now)
    | (none, _, _) => awaitEvent d t s (now + slice d now)
termination_by d.remaining now
decreasing_by
  simp_all only [Deadline.isExpired, slice, Deadline.remaining,
    decide_eq_true_eq, Nat.not_le]
  omega

theorem queue_of_next_some {s s' : Session} {wait now now' : Nat} {e : Event}
    (h : s.next wait now = (some e, s', now')) :
    s'.queue.length < s.queue.length := by
  unfold Session.next at h
  split at h
  · rename_i d rest hq
    split at h
    · simp only [Prod.mk.injEq] at h
      rw [← h.2.1, hq]
      simp
    · simp at h
  · simp at h

/-- An event that was delivered has left the queue. -/
theorem queue_of_awaitEvent_ok {d : Deadline} {t : CancelToken} {s s' : Session}
    {now now' : Nat} {e : Event}
    (h : awaitEvent d t s now = (.ok e, s', now')) :
    s'.queue.length < s.queue.length := by
  fun_induction awaitEvent d t s now with
  | case1 => simp at h
  | case2 => simp at h
  | case3 now _ _ e' s'' now'' hnext =>
      simp only [Prod.mk.injEq, Except.ok.injEq] at h
      rw [← h.2.1]
      exact queue_of_next_some hnext
  | case4 now _ _ s'' now'' hnext ih => exact ih h

/-- An event and the time since the check started. -/
structure Sighting where
  event : Event
  elapsed : Nat
  deriving DecidableEq

/-- Waits for events until those seen, oldest first, are enough. -/
def gather (enough : List Sighting → Bool) (d : Deadline) (t : CancelToken)
    (seen : List Sighting) (s : Session) (now : Nat) :
    Except Failure (List Sighting) × Session × Nat :=
  match h : awaitEvent d t s now with
  | (.error f, s, now) => (.error f, s, now)
  | (.ok e, s', now) =>
      let seen := seen ++ [⟨e, d.elapsed now⟩]
      if enough seen then (.ok seen, s', now)
      else gather enough d t seen s' now
termination_by s.queue.length
decreasing_by exact queue_of_awaitEvent_ok h

/-! ## The first of the events gathered -/

section First

variable {enough : List Sighting → Bool} {d : Deadline} {t : CancelToken}
  {seen : List Sighting} {s s' : Session} {now now' : Nat}

theorem gather_of_error {f : Failure} (h : awaitEvent d t s now = (.error f, s', now')) :
    gather enough d t seen s now = (.error f, s', now') := by
  rw [gather.eq_def]
  split <;> simp_all

theorem gather_of_ok {e : Event} (h : awaitEvent d t s now = (.ok e, s', now')) :
    gather enough d t seen s now =
      if enough (seen ++ [⟨e, d.elapsed now'⟩]) then
        (.ok (seen ++ [⟨e, d.elapsed now'⟩]), s', now')
      else gather enough d t (seen ++ [⟨e, d.elapsed now'⟩]) s' now' := by
  rw [gather.eq_def]
  split <;> simp_all

end First

end Compliance.Check
