import Mathlib.Data.List.MinMax
import Mathlib.Tactic.Common
import Compliance.Check.Await
import Compliance.Proofs.Device.Session

/-!
# One wait in many slices

A wait is cut into slices no longer than the poll interval, and between them it
looks at the token and the deadline.  What comes of it is what would come of a
single wait for the first event up to the deadline, and the poll interval only
decides how often it looks.
-/

namespace Compliance.Device.Session.InOrder

/-- The event that is due first is in front. -/
theorem argmin_eq {s : Session} (hs : s.InOrder) {due : Due} {rest : List Due}
    (hq : s.queue = due :: rest) : s.queue.argmin (·.time) = some due := by
  rw [hq, List.argmin_eq_some_iff]
  refine ⟨List.mem_cons_self, ?_, by simp⟩
  intro e he
  rcases List.mem_cons.1 he with rfl | he
  · exact le_refl _
  · exact hs.le_of_cons hq e he

end Compliance.Device.Session.InOrder

namespace Compliance.Check

open Compliance.Device (Due Event Session)

/-- A wait with the clock at each of its looks, and what comes of it.  Silence
up to the end of a slice is followed by another look. -/
inductive Waits (d : Deadline) (t : CancelToken) :
    Session → Nat → List Nat → Except Failure Event × Session × Nat → Prop where
  | cancelled {s : Session} {now : Nat} (ht : t.isCancelled = true) :
      Waits d t s now [now] (.error cancelledFailure, s, now)
  | expired {s : Session} {now : Nat} (ht : t.isCancelled = false)
      (hd : d.isExpired now = true) :
      Waits d t s now [now] (.error (noCallback d s), s, now)
  | delivered {s s' : Session} {now now' : Nat} {e : Event}
      (ht : t.isCancelled = false) (hd : d.isExpired now = false)
      (hnext : s.next (d.nextWait now) now = (some e, s', now')) :
      Waits d t s now [now] (.ok e, s', now')
  | silent {s s' : Session} {now now' : Nat} {looks : List Nat}
      {out : Except Failure Event × Session × Nat}
      (ht : t.isCancelled = false) (hd : d.isExpired now = false)
      (hnext : s.next (d.nextWait now) now = (none, s', now'))
      (hrest : Waits d t s' now' looks out) :
      Waits d t s now (now :: looks) out

/-- A single wait for the event that is due first, up to the deadline. -/
def boundedWait (d : Deadline) (t : CancelToken) (s : Session) (now : Nat) :
    Except Failure Event × Session × Nat :=
  if t.isCancelled then (.error cancelledFailure, s, now)
  else if d.time ≤ now then (.error (noCallback d s), s, now)
  else
    match s.queue.argmin (·.time) with
    | some first =>
        if first.time ≤ d.time then
          (.ok first.event, { s with queue := s.queue.erase first }, max now first.time)
        else (.error (noCallback d s), s, d.time)
    | none => (.error (noCallback d s), s, d.time)

section Wait

variable {d : Deadline} {t : CancelToken} {s : Session} {now : Nat}

theorem isExpired_iff : d.isExpired now = true ↔ d.time ≤ now := by
  simp [Deadline.isExpired]

theorem isExpired_eq_false_iff : d.isExpired now = false ↔ now < d.time := by
  simp [Deadline.isExpired]

/-- A poll interval that is not zero is the length of a slice, but for the last. -/
theorem slice_eq_nextWait (hpoll : 0 < d.timeouts.poll) :
    slice d now = d.nextWait now := by
  simp only [slice, Deadline.nextWait]
  omega

theorem add_slice_le (h : now < d.time) : now + slice d now ≤ d.time := by
  simp only [slice, Deadline.remaining]
  omega

theorem awaitEvent_of_cancelled (ht : t.isCancelled = true) :
    awaitEvent d t s now = (.error cancelledFailure, s, now) := by
  rw [awaitEvent, if_pos ht]

theorem awaitEvent_of_expired (ht : t.isCancelled = false) (h : d.time ≤ now) :
    awaitEvent d t s now = (.error (noCallback d s), s, now) := by
  rw [awaitEvent, if_neg (by simp [ht]), if_pos (isExpired_iff.2 h)]

/-- After a silent slice the wait goes on. -/
theorem awaitEvent_of_none (ht : t.isCancelled = false) (hd : d.isExpired now = false)
    {s' : Session} {now' : Nat} (hnext : s.next (slice d now) now = (none, s', now')) :
    awaitEvent d t s now = awaitEvent d t s' now' := by
  obtain ⟨rfl, rfl, -⟩ := Session.next_eq_none hnext
  rw [awaitEvent.eq_def]
  simp [ht, hd, hnext]

/-- An event that is due by the deadline is delivered when it is due, in
whichever slice that is. -/
theorem awaitEvent_of_due (ht : t.isCancelled = false) (h : now < d.time) {due : Due}
    {rest : List Due} (hq : s.queue = due :: rest) (hdue : due.time ≤ d.time) :
    awaitEvent d t s now = (.ok due.event, { s with queue := rest }, max now due.time) := by
  fun_induction awaitEvent d t s now with
  | case1 now hcancelled => simp [ht] at hcancelled
  | case2 now _ hexpired => exact absurd (isExpired_iff.1 hexpired) (Nat.not_le.2 h)
  | case3 now _ _ e s' now' hnext =>
      obtain ⟨due', rest', hq', -, rfl, rfl, rfl⟩ := Session.next_eq_some hnext
      cases hq.symm.trans hq'
      rfl
  | case4 now _ _ s' now' hnext ih =>
      obtain ⟨-, -, hlate⟩ := Session.next_eq_none hnext
      have hlater : now + slice d now < due.time := hlate due (by simp [hq])
      rw [ih (lt_of_lt_of_le hlater hdue), Nat.max_eq_right hlater.le,
        Nat.max_eq_right ((Nat.le_add_right now _).trans hlater.le)]

/-- When nothing is due by the deadline, the wait ends there. -/
theorem awaitEvent_of_silent (ht : t.isCancelled = false) (h : now ≤ d.time)
    (hq : ∀ due ∈ s.queue.head?, d.time < due.time) :
    awaitEvent d t s now = (.error (noCallback d s), s, d.time) := by
  fun_induction awaitEvent d t s now with
  | case1 now hcancelled => simp [ht] at hcancelled
  | case2 now _ hexpired => rw [Nat.le_antisymm h (isExpired_iff.1 hexpired)]
  | case3 now _ hd e s' now' hnext =>
      obtain ⟨due, rest, hq', hdue, -⟩ := Session.next_eq_some hnext
      have hend := add_slice_le (isExpired_eq_false_iff.1 (by simpa using hd))
      have hlate := hq due (by simp [hq'])
      exact absurd (hdue.trans hend) (Nat.not_le.2 hlate)
  | case4 now _ hd s' now' hnext ih =>
      exact ih (add_slice_le (isExpired_eq_false_iff.1 (by simpa using hd)))

theorem awaitEvent_eq_boundedWait (hs : s.InOrder) :
    awaitEvent d t s now = boundedWait d t s now := by
  unfold boundedWait
  split
  · rename_i ht
    exact awaitEvent_of_cancelled ht
  · rename_i ht
    rw [Bool.not_eq_true] at ht
    split
    · rename_i hd
      exact awaitEvent_of_expired ht hd
    · rename_i hd
      rw [Nat.not_le] at hd
      cases hq : s.queue with
      | nil =>
          rw [awaitEvent_of_silent ht hd.le (by simp [hq])]
          rfl
      | cons due rest =>
          rw [← hq, hs.argmin_eq hq]
          by_cases hdue : due.time ≤ d.time
          · rw [awaitEvent_of_due ht hd hq hdue]
            simp [hdue, hq]
          · rw [awaitEvent_of_silent ht hd.le (by simpa [hq] using hdue)]
            simp [hdue]

/-- However the slices fall, a wait comes to the same. -/
theorem Waits.eq_awaitEvent (hpoll : 0 < d.timeouts.poll) {looks : List Nat}
    {out : Except Failure Event × Session × Nat} (h : Waits d t s now looks out) :
    out = awaitEvent d t s now := by
  induction h with
  | cancelled ht => rw [awaitEvent_of_cancelled ht]
  | expired ht hd => rw [awaitEvent_of_expired ht (isExpired_iff.1 hd)]
  | delivered ht hd hnext =>
      rw [← slice_eq_nextWait hpoll] at hnext
      rw [awaitEvent, if_neg (by simp [ht]), if_neg (by simp [hd]), hnext]
  | silent ht hd hnext hrest ih =>
      rw [← slice_eq_nextWait hpoll] at hnext
      rw [ih, awaitEvent_of_none ht hd hnext]

theorem Waits.unique (hpoll : 0 < d.timeouts.poll) {looks looks' : List Nat}
    {out out' : Except Failure Event × Session × Nat} (h : Waits d t s now looks out)
    (h' : Waits d t s now looks' out') : out = out' :=
  (h.eq_awaitEvent hpoll).trans (h'.eq_awaitEvent hpoll).symm

/-- One more look takes a whole poll interval or goes up to the deadline. -/
theorem looks_succ (hpoll : 0 < d.timeouts.poll) (h : now < d.time) {n : Nat}
    (hn : n * d.timeouts.poll < d.remaining (now + slice d now) + 2 * d.timeouts.poll) :
    (n + 1) * d.timeouts.poll < d.remaining now + 2 * d.timeouts.poll := by
  simp only [slice_eq_nextWait hpoll, Deadline.nextWait, Deadline.remaining] at hn ⊢
  rw [Nat.succ_mul]
  rcases Nat.le_total d.timeouts.poll (d.time - now) with hlong | hshort
  · omega
  · have htwo : n * d.timeouts.poll < 2 * d.timeouts.poll := by omega
    have hone : n ≤ 1 := Nat.le_of_lt_succ (Nat.lt_of_mul_lt_mul_right htwo)
    have hle := Nat.mul_le_mul_right d.timeouts.poll hone
    omega

/-- A wait looks once in every poll interval up to the deadline, and never
behind it. -/
theorem exists_waits (hpoll : 0 < d.timeouts.poll) :
    ∃ looks, Waits d t s now looks (awaitEvent d t s now) ∧
      (∀ time ∈ looks, time ≤ max now d.time) ∧
      looks.length * d.timeouts.poll < d.remaining now + 2 * d.timeouts.poll := by
  fun_induction awaitEvent d t s now with
  | case1 now ht => exact ⟨[now], .cancelled ht, by simp, by simp; omega⟩
  | case2 now ht hd =>
      exact ⟨[now], .expired (by simpa using ht) hd, by simp, by simp; omega⟩
  | case3 now ht hd e s' now' hnext =>
      rw [slice_eq_nextWait hpoll] at hnext
      exact ⟨[now], .delivered (by simpa using ht) (by simpa using hd) hnext, by simp,
        by simp; omega⟩
  | case4 now ht hd s' now' hnext ih =>
      obtain ⟨looks, hwaits, hlooks, hlength⟩ := ih
      obtain ⟨rfl, rfl, -⟩ := Session.next_eq_none hnext
      have hopen := isExpired_eq_false_iff.1 (by simpa using hd)
      have hend := add_slice_le hopen
      refine ⟨now :: looks, ?_, ?_, looks_succ hpoll hopen hlength⟩
      · rw [slice_eq_nextWait hpoll] at hnext hwaits ⊢
        exact .silent (by simpa using ht) (by simpa using hd) hnext hwaits
      · intro time htime
        rcases List.mem_cons.1 htime with rfl | htime
        · exact Nat.le_max_left _ _
        · have hle := hlooks time htime
          omega

theorem clock_awaitEvent_le : (awaitEvent d t s now).2.2 ≤ max now d.time := by
  fun_induction awaitEvent d t s now with
  | case1 now ht => exact Nat.le_max_left _ _
  | case2 now ht hd => exact Nat.le_max_left _ _
  | case3 now ht hd e s' now' hnext =>
      obtain ⟨due, rest, -, hdue, -, -, rfl⟩ := Session.next_eq_some hnext
      have hend := add_slice_le (isExpired_eq_false_iff.1 (by simpa using hd))
      exact max_le_max_left now (hdue.trans hend)
  | case4 now ht hd s' now' hnext ih =>
      have hend := add_slice_le (isExpired_eq_false_iff.1 (by simpa using hd))
      rw [Nat.max_eq_right hend] at ih
      exact ih.trans (Nat.le_max_right _ _)

end Wait

/-- A sliced wait goes one way and to an end, and comes to what a single wait up
to the deadline comes to.  It never waits beyond the deadline, and the poll
interval makes no difference. -/
theorem awaitEvent_sliced (d : Deadline) (t : CancelToken) (s : Session) (now : Nat)
    (hpoll : 0 < d.timeouts.poll) (hs : s.InOrder) :
    awaitEvent d t s now = boundedWait d t s now ∧
      (∀ out, (∃ looks, Waits d t s now looks out) ↔ out = awaitEvent d t s now) ∧
      (∃ looks, Waits d t s now looks (awaitEvent d t s now) ∧
        (∀ time ∈ looks, time ≤ max now d.time) ∧
        looks.length * d.timeouts.poll < d.remaining now + 2 * d.timeouts.poll) ∧
      (awaitEvent d t s now).2.2 ≤ max now d.time ∧
      ∀ poll, 0 < poll →
        awaitEvent { d with timeouts := { d.timeouts with poll := poll } } t s now =
          awaitEvent d t s now := by
  have hwaits := @exists_waits d t s now hpoll
  refine ⟨awaitEvent_eq_boundedWait hs, ?_, hwaits, clock_awaitEvent_le, ?_⟩
  · intro out
    constructor
    · rintro ⟨looks, hlooks⟩
      exact hlooks.eq_awaitEvent hpoll
    · rintro rfl
      obtain ⟨looks, hlooks, -⟩ := hwaits
      exact ⟨looks, hlooks⟩
  · intro poll _
    rw [awaitEvent_eq_boundedWait hs, awaitEvent_eq_boundedWait hs]
    rfl

/-- The second slice, the deadline and two events all come at the same time. -/
theorem awaitEvent_sliced_at_deadline :
    let d : Deadline := ⟨⟨50, 20⟩, 0⟩
    let late : List Due := [⟨50, .disconnected "late"⟩, ⟨90, .disconnected "later"⟩]
    let s : Session := ⟨.lowEnergy, ⟨50, .discoveryComplete⟩ :: late, true⟩
    0 < d.timeouts.poll ∧ s.InOrder ∧
      awaitEvent d .fresh s 10 = (.ok .discoveryComplete, { s with queue := late }, 50) ∧
      Waits d .fresh s 10 [10, 30] (.ok .discoveryComplete, { s with queue := late }, 50) := by
  intro d late s
  have hpoll : 0 < d.timeouts.poll := by decide
  have hs : s.InOrder := by simp [s, late, Session.InOrder]
  obtain ⟨hbounded, -⟩ := awaitEvent_sliced d .fresh s 10 hpoll hs
  refine ⟨hpoll, hs, hbounded.trans rfl, ?_⟩
  have hnext : s.next (d.nextWait 10) 10 = (none, s, 30) := rfl
  exact .silent rfl rfl hnext (.delivered rfl rfl rfl)

end Compliance.Check
