import Compliance.Proofs.Check.GivingBack
import Compliance.Proofs.Check.Waiting

/-!
# Cancelling a check

A check goes on step by step, and no step takes a cancellation back.  Once the
token is set, the next wait that a check comes to ends it: it fails as
cancelled, and nothing has happened to its session or its clock.
-/

namespace Compliance.Check

variable {α : Type}

theorem gather_of_cancelled {t : CancelToken} (ht : t.isCancelled = true)
    (enough : List Sighting → Bool) (d : Deadline) (seen : List Sighting)
    (s : Device.Session) (now : Nat) :
    gather enough d t seen s now = (.error cancelledFailure, s, now) :=
  gather_of_error (awaitEvent_of_cancelled ht)

/-! ## Runs leave a set token set -/

theorem Preparation.isCancelled_run (p : Preparation) {b : Bench}
    (h : b.token.isCancelled = true) : (p.run b).2.token.isCancelled = true := by
  induction p generalizing b with
  | ready | skip r | panic q => exact h
  | cancel next ih => exact ih rfl
  | sleep ms next ih => exact ih h
  | acquire c next ih =>
      simp only [run]
      split
      · exact h
      · rename_i b' hb
        apply ih
        rw [Bench.token_acquire hb]
        exact h

theorem Cleanup.isCancelled_run (p : Cleanup) {b : Bench}
    (h : b.token.isCancelled = true) : (p.run b).2.token.isCancelled = true := by
  induction p generalizing b with
  | done | panic q => exact h
  | cancel next ih => exact ih rfl
  | sleep ms next ih => exact ih h
  | release next ih =>
      apply ih
      rw [Bench.token_release]
      exact h

namespace Program

variable {p q : Point α}

theorem Step.isCancelled (h : Step p q) (hp : p.bench.token.isCancelled = true) :
    q.bench.token.isCancelled = true := by
  cases h with
  | cancel => rfl
  | sleep | look | record | headline | send | gather | release => exact hp

theorem Reaches.isCancelled (h : Reaches p q) (hp : p.bench.token.isCancelled = true) :
    q.bench.token.isCancelled = true := by
  induction h with
  | refl => exact hp
  | tail hreach hstep ih => exact hstep.isCancelled ih

theorem isCancelled_run (code : Program α) {c : Context} {b : Bench}
    (h : b.token.isCancelled = true) : (code.run c b).bench.token.isCancelled = true :=
  finish_induction (P := fun p => p.bench.token.isCancelled = true)
    (Q := fun f => f.bench.token.isCancelled = true)
    (fun _ _ hp hstep => hstep.isCancelled hp) (fun _ _ hp hhalt => by cases hhalt <;> exact hp)
    (p := ⟨code, c, b⟩) h

/-- A wait that is come to after a cancellation ends the check, and nothing else
happens. -/
theorem finish_of_cancelled_wait {enough : List Sighting → Bool}
    {next : List Sighting → Program α} {c : Context} {b : Bench} {s : Device.Session}
    (h : Reaches p ⟨.gather enough next, c, b⟩) (hs : b.session = some s)
    (hb : b.token.isCancelled = true) :
    p.finish = ⟨.stopped cancelledFailure, c.log, b⟩ := by
  have hbench : { b with session := some s } = b := by
    rw [← hs]
  rw [h.finish_eq]
  simp only [Point.finish, run, hs, gather_of_cancelled hb, hbench]

end Program

end Compliance.Check
