import Compliance.Proofs.Check.Cancelling

/-!
# Signals

A signal sets the token at a time of its own.  What becomes of a check under a
signal is what becomes of the check whose code sets the token at that time, so
all that signals can do is to put cancellations into the code.
-/

namespace Compliance.Check

open Compliance.Device (Event Session)

/-! ## In a wait -/

/-- A wait in which the token is set after so many slices of silence. -/
def awaitSignalled (d : Deadline) (t : CancelToken) (s : Session) (now : Nat) :
    Nat → Except Failure Event × Session × Nat
  | 0 => awaitEvent d t.cancel s now
  | slices + 1 =>
      if t.isCancelled then (.error cancelledFailure, s, now)
      else if d.isExpired now then (.error (noCallback d s), s, now)
      else
        match s.next (slice d now) now with
        | (some e, s, now) => (.ok e, s, now)
        | (none, _, _) => awaitSignalled d t s (now + slice d now) slices

/-- The signal comes too late, or the wait is as one that begins later with the
token set. -/
theorem awaitSignalled_eq (d : Deadline) (t : CancelToken) (s : Session)
    (now slices : Nat) :
    awaitSignalled d t s now slices = awaitEvent d t s now ∨
      ∃ ms, awaitSignalled d t s now slices = awaitEvent d t.cancel s (now + ms) := by
  induction slices generalizing now with
  | zero => exact Or.inr ⟨0, rfl⟩
  | succ slices ih =>
      rw [awaitSignalled, awaitEvent]
      split
      · exact Or.inl rfl
      · split
        · exact Or.inl rfl
        · cases hnext : s.next (slice d now) now with
          | mk answer out =>
              cases answer with
              | some e => exact Or.inl rfl
              | none =>
                  rcases ih (now + slice d now) with h | ⟨ms, h⟩
                  · exact Or.inl h
                  · exact Or.inr ⟨slice d now + ms, by rw [h, Nat.add_assoc]⟩

/-- A gathering in which the token is set in the wait behind so many events,
after so many slices of it. -/
def gatherSignalled (enough : List Sighting → Bool) (d : Deadline) (t : CancelToken)
    (slices : Nat) : Nat → List Sighting → Session → Nat →
      Except Failure (List Sighting) × Session × Nat
  | 0, seen, s, now =>
      match awaitSignalled d t s now slices with
      | (.error f, s, now) => (.error f, s, now)
      | (.ok e, s, now) =>
          let seen := seen ++ [⟨e, d.elapsed now⟩]
          if enough seen then (.ok seen, s, now) else gather enough d t seen s now
  | events + 1, seen, s, now =>
      match awaitEvent d t s now with
      | (.error f, s, now) => (.error f, s, now)
      | (.ok e, s, now) =>
          let seen := seen ++ [⟨e, d.elapsed now⟩]
          if enough seen then (.ok seen, s, now)
          else gatherSignalled enough d t slices events seen s now

/-- A gathering that goes on: from one state to another it has seen so many
events, and never enough. -/
inductive GoesOn (enough : List Sighting → Bool) (d : Deadline) (t : CancelToken) :
    Nat → List Sighting → Session → Nat → List Sighting → Session → Nat → Prop where
  | here (seen : List Sighting) (s : Session) (now : Nat) :
      GoesOn enough d t 0 seen s now seen s now
  | behind {events : Nat} {seen found : List Sighting} {s s' s'' : Session}
      {now now' now'' : Nat} {e : Event}
      (hawait : awaitEvent d t s now = (.ok e, s', now'))
      (hen : enough (seen ++ [⟨e, d.elapsed now'⟩]) = false)
      (hrest : GoesOn enough d t events (seen ++ [⟨e, d.elapsed now'⟩]) s' now'
        found s'' now'') :
      GoesOn enough d t (events + 1) seen s now found s'' now''

section Gathering

variable {enough : List Sighting → Bool} {d : Deadline} {t : CancelToken}
  {seen found : List Sighting} {s s' : Session} {now now' : Nat}

/-- The signal comes too late, or the gathering goes on up to it and fails some
time after. -/
theorem gatherSignalled_eq (enough : List Sighting → Bool) (d : Deadline) (t : CancelToken)
    (slices events : Nat) (seen : List Sighting) (s : Session) (now : Nat) :
    gatherSignalled enough d t slices events seen s now = gather enough d t seen s now ∨
      ∃ found s' now' ms, GoesOn enough d t events seen s now found s' now' ∧
        gatherSignalled enough d t slices events seen s now =
          (.error cancelledFailure, s', now' + ms) := by
  induction events generalizing seen s now with
  | zero =>
      rw [gatherSignalled]
      rcases awaitSignalled_eq d t s now slices with h | ⟨ms, h⟩
      · left
        rw [h]
        cases hawait : awaitEvent d t s now with
        | mk answer out =>
            cases answer with
            | error f => rw [gather_of_error hawait]
            | ok e => rw [gather_of_ok hawait]
      · right
        rw [h, awaitEvent_of_cancelled t.isCancelled_cancel]
        exact ⟨seen, s, now, ms, .here seen s now, rfl⟩
  | succ events ih =>
      rw [gatherSignalled]
      cases hawait : awaitEvent d t s now with
      | mk answer out =>
          obtain ⟨s', now'⟩ := out
          cases answer with
          | error f => exact Or.inl (gather_of_error hawait).symm
          | ok e =>
              rw [gather_of_ok hawait]
              cases hen : enough (seen ++ [⟨e, d.elapsed now'⟩]) with
              | true => exact Or.inl (by simp only [hen, ↓reduceIte])
              | false =>
                  simp only [hen, Bool.false_eq_true, ↓reduceIte]
                  refine (ih _ s' now').imp_right ?_
                  rintro ⟨found, s'', now'', ms, hrest, h⟩
                  exact ⟨found, s'', now'', ms, .behind hawait hen hrest, h⟩

theorem GoesOn.zero (h : GoesOn enough d t 0 seen s now found s' now') :
    found = seen ∧ s' = s ∧ now' = now := by
  cases h
  exact ⟨rfl, rfl, rfl⟩

/-- What is seen on the way is what a gathering of so many events gives. -/
theorem GoesOn.gather_eq {events : Nat}
    (h : GoesOn enough d t (events + 1) seen s now found s' now') :
    enough found = false ∧
      gather (fun l => enough l || l.length == seen.length + (events + 1)) d t seen s now =
        (.ok found, s', now') := by
  induction events generalizing seen s now with
  | zero =>
      obtain _ | ⟨hawait, hen, hrest⟩ := h
      obtain ⟨rfl, rfl, rfl⟩ := hrest.zero
      rw [gather_of_ok hawait]
      exact ⟨hen, by simp⟩
  | succ events ih =>
      obtain _ | ⟨hawait, hen, hrest⟩ := h
      obtain ⟨hfound, hgather⟩ := ih hrest
      refine ⟨hfound, ?_⟩
      rw [gather_of_ok hawait, hen]
      simpa [Nat.add_assoc, Nat.add_comm 1] using hgather

end Gathering

/-! ## In the code -/

/-- Preparation into which signals have put cancellations. -/
inductive Preparation.Signalled : Preparation → Preparation → Prop where
  | same (p : Preparation) : Signalled p p
  | now {p p' : Preparation} (h : Signalled p p') : Signalled p (.cancel p')
  | cancel {next next' : Preparation} (h : Signalled next next') :
      Signalled (.cancel next) (.cancel next')
  | sleep (ms : Nat) {next next' : Preparation} (h : Signalled next next') :
      Signalled (.sleep ms next) (.sleep ms next')
  | asleep (ms : Nat) {rest : Nat} {next next' : Preparation}
      (h : Signalled (.sleep rest next) next') :
      Signalled (.sleep (ms + rest) next) (.sleep ms (.cancel next'))
  | acquire (c : Device.Capability) {next next' : Preparation} (h : Signalled next next') :
      Signalled (.acquire c next) (.acquire c next')

/-- Cleanup into which signals have put cancellations. -/
inductive Cleanup.Signalled : Cleanup → Cleanup → Prop where
  | same (p : Cleanup) : Signalled p p
  | now {p p' : Cleanup} (h : Signalled p p') : Signalled p (.cancel p')
  | cancel {next next' : Cleanup} (h : Signalled next next') :
      Signalled (.cancel next) (.cancel next')
  | sleep (ms : Nat) {next next' : Cleanup} (h : Signalled next next') :
      Signalled (.sleep ms next) (.sleep ms next')
  | asleep (ms : Nat) {rest : Nat} {next next' : Cleanup}
      (h : Signalled (.sleep rest next) next') :
      Signalled (.sleep (ms + rest) next) (.sleep ms (.cancel next'))
  | release {next next' : Cleanup} (h : Signalled next next') :
      Signalled (.release next) (.release next')

namespace Program

variable {α : Type}

/-- Waits that are cut short by a cancellation: when so many events have been
seen and they are not enough, some time passes and the token is set. -/
def cutShort (events ms : Nat) (enough : List Sighting → Bool)
    (next : List Sighting → Program α) : Program α :=
  gather (fun seen => enough seen || seen.length == events) fun seen =>
    if enough seen then next seen else sleep ms (cancel (gather enough next))

/-- A check into which signals have put cancellations. -/
inductive Signalled : Program α → Program α → Prop where
  | same (p : Program α) : Signalled p p
  | now {p p' : Program α} (h : Signalled p p') : Signalled p (.cancel p')
  | cancel {next next' : Program α} (h : Signalled next next') :
      Signalled (.cancel next) (.cancel next')
  | sleep (ms : Nat) {next next' : Program α} (h : Signalled next next') :
      Signalled (.sleep ms next) (.sleep ms next')
  | asleep (ms : Nat) {rest : Nat} {next next' : Program α}
      (h : Signalled (.sleep rest next) next') :
      Signalled (.sleep (ms + rest) next) (.sleep ms (.cancel next'))
  | look {next next' : View → Program α} (h : ∀ v, Signalled (next v) (next' v)) :
      Signalled (.look next) (.look next')
  | record (m : Report.Metric) {next next' : Program α} (h : Signalled next next') :
      Signalled (.record m next) (.record m next')
  | headline (m : Report.Metric) {next next' : Program α} (h : Signalled next next') :
      Signalled (.headline m next) (.headline m next')
  | send (r : Device.Request) {next next' : Program α} (h : Signalled next next') :
      Signalled (.send r next) (.send r next')
  | gather (enough : List Sighting → Bool) {next next' : List Sighting → Program α}
      (h : ∀ seen, Signalled (next seen) (next' seen)) :
      Signalled (.gather enough next) (.gather enough next')
  | unheard (ms : Nat) (enough : List Sighting → Bool)
      (next : List Sighting → Program α) :
      Signalled (.gather enough next) (.sleep ms (.cancel (.gather enough next)))
  | cutShort (events ms : Nat) (enough : List Sighting → Bool)
      {next next' : List Sighting → Program α}
      (h : ∀ seen, Signalled (next seen) (next' seen)) :
      Signalled (.gather enough next) (.cutShort events ms enough next')
  | release {next next' : Program α} (h : Signalled next next') :
      Signalled (.release next) (.release next')

section Wait

variable {enough : List Sighting → Bool} {c : Context} {b : Bench} {s s' : Session}
  {answer : Except Failure (List Sighting)} {now : Nat}

/-- A wait that a signal reaches is one into which a cancellation has been put:
the signal comes too late for it, or it fails as cancelled. -/
theorem gather_signalled (next : List Sighting → Program α) (slices events : Nat)
    (hs : b.session = some s)
    (h : gatherSignalled enough c.deadline b.token slices events [] s b.clock =
      (answer, s', now)) :
    Check.gather enough c.deadline b.token [] s b.clock = (answer, s', now) ∨
      answer = .error cancelledFailure ∧ ∃ code, (gather enough next).Signalled code ∧
        code.run c b = ⟨.stopped cancelledFailure, c.log,
          { b.cancel with session := some s', clock := now }⟩ := by
  rcases gatherSignalled_eq enough c.deadline b.token slices events [] s b.clock with
    heq | hcut
  · exact Or.inl (heq ▸ h)
  · obtain ⟨found, s'', now'', ms, hon, heq⟩ := hcut
    obtain ⟨rfl, rfl, rfl⟩ :
        Except.error cancelledFailure = answer ∧ s'' = s' ∧ now'' + ms = now := by
      simpa using heq.symm.trans h
    refine Or.inr ⟨rfl, ?_⟩
    cases events with
    | zero =>
        obtain ⟨rfl, rfl, rfl⟩ := hon.zero
        refine ⟨_, .unheard ms enough next, ?_⟩
        simp [run, Bench.sleep, Bench.cancel, hs,
          gather_of_cancelled b.token.isCancelled_cancel]
    | succ events =>
        obtain ⟨hen, hgather⟩ := hon.gather_eq
        refine ⟨_, .cutShort (events + 1) ms enough fun seen => .same (next seen), ?_⟩
        simp only [List.length_nil, Nat.zero_add] at hgather
        simp [cutShort, run, hs, hgather, hen, Bench.sleep, Bench.cancel,
          gather_of_cancelled b.token.isCancelled_cancel]

end Wait

end Program

/-- A case under signals; nothing but its code is touched. -/
structure TestCase.Signalled (c c' : TestCase) : Prop where
  id : c'.id = c.id
  requires : c'.requires = c.requires
  prepare : c.prepare.Signalled c'.prepare
  execute : c.execute.Signalled c'.execute
  cleanup : c.cleanup.Signalled c'.cleanup

theorem TestCase.Signalled.refl (c : TestCase) : c.Signalled c :=
  ⟨rfl, rfl, .same _, .same _, .same _⟩

end Compliance.Check
