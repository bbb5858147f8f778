import Compliance.Proofs.Check.Later
import Compliance.Proofs.Check.Steps
import Compliance.Proofs.Device.Session
import Compliance.Proofs.Suite.Entries

/-!
# Giving the device back

The platform holds exactly what the open session holds, whatever test code
does, and only a cancellation touches the token.  A registry check never
cancels and lets go of its session at the end, so the device is again as it
was, but for the clock and the requests it has seen.
-/

namespace Compliance.Check

open Compliance.Device (Capability Platform Request Script Session)
open Compliance.Report (TestId)

theorem awaitEvent_keeps (d : Deadline) (t : CancelToken) (s : Session) (now : Nat) :
    (awaitEvent d t s now).2.1.capability = s.capability ∧
      (awaitEvent d t s now).2.1.isOpen = s.isOpen := by
  fun_induction awaitEvent d t s now with
  | case1 | case2 => exact ⟨rfl, rfl⟩
  | case3 now h hexp e s' now' hnext =>
      have hkeeps := s.next_keeps (slice d now) now
      rw [hnext] at hkeeps
      exact hkeeps
  | case4 now h hexp s' now' hnext ih => exact ih

theorem gather_keeps (enough : List Sighting → Bool) (d : Deadline) (t : CancelToken)
    (seen : List Sighting) (s : Session) (now : Nat) :
    (gather enough d t seen s now).2.1.capability = s.capability ∧
      (gather enough d t seen s now).2.1.isOpen = s.isOpen := by
  fun_induction gather enough d t seen s now with
  | case1 seen s now f s' now' hawait =>
      have hkeeps := awaitEvent_keeps d t s now
      rw [hawait] at hkeeps
      exact hkeeps
  | case2 seen s now e s' now' hawait seen' hen =>
      have hkeeps := awaitEvent_keeps d t s now
      rw [hawait] at hkeeps
      exact hkeeps
  | case3 seen s now e s' now' hawait seen' hen ih =>
      have hkeeps := awaitEvent_keeps d t s now
      rw [hawait] at hkeeps
      exact ⟨ih.1.trans hkeeps.1, ih.2.trans hkeeps.2⟩

theorem Bench.token_release (b : Bench) : b.release.token = b.token := by
  unfold release
  split <;> rfl

@[simp] theorem Bench.session_release (b : Bench) : b.release.session = none := by
  unfold release
  split
  · assumption
  · rfl

theorem Bench.token_acquire {b b' : Bench} {c : Device.Capability}
    (h : b.acquire c = .ok b') : b'.token = b.token := by
  unfold acquire at h
  split at h
  · cases h
  · cases h
    exact token_release _

/-- What the platform holds for a test. -/
def Bench.holding (b : Bench) : List Capability :=
  match b.session with
  | none => []
  | some s => s.holding

/-- The bench is one of a device: nothing about the device has changed but what
the open session holds, and nobody has touched the token. -/
structure Bench.Serves (device : Script) (t : CancelToken) (b : Bench) : Prop where
  token : b.token = t
  available : b.platform.available = device.profile.capabilities
  responses : b.platform.responses = device.responses
  held : b.platform.held = ⟨b.holding⟩

namespace Bench.Serves

variable {device : Script} {t : CancelToken} {b : Bench}

theorem sleep (h : b.Serves device t) (ms : Nat) : (b.sleep ms).Serves device t :=
  ⟨h.token, h.available, h.responses, h.held⟩

theorem cancel (h : b.Serves device t) : b.cancel.Serves device t.cancel :=
  ⟨congrArg CancelToken.cancel h.token, h.available, h.responses, h.held⟩

theorem replace (h : b.Serves device t) {s : Session} (hs : b.session = some s)
    (s' : Session) (hc : s'.capability = s.capability) (ho : s'.isOpen = s.isOpen) (clock : Nat)
    (requests : List Request) :
    ({ b with
      clock := clock
      platform := { b.platform with requests := requests }
      session := some s' } : Bench).Serves device t := by
  refine ⟨h.token, h.available, h.responses, ?_⟩
  have hheld := h.held
  simp only [holding, hs] at hheld
  simp only [holding, hheld, Session.holding_congr hc ho]

theorem close (h : b.Serves device t) {s : Session} (hs : b.session = some s) :
    ({ b with session := some (s.close b.platform).1,
              platform := (s.close b.platform).2 } : Bench).Serves device t := by
  have hheld := h.held
  simp only [holding, hs, Session.holding] at hheld
  by_cases ho : s.isOpen = true
  · refine ⟨h.token, ?_, ?_, ?_⟩
    · simpa [Session.close, ho, Platform.giveBack] using h.available
    · simpa [Session.close, ho, Platform.giveBack] using h.responses
    · simp [Session.close, ho, Platform.giveBack, hheld, holding, Session.holding]
  · refine ⟨h.token, ?_, ?_, ?_⟩
    · simpa [Session.close, ho] using h.available
    · simpa [Session.close, ho] using h.responses
    · simpa [Session.close, ho, holding, Session.holding] using hheld

theorem release (h : b.Serves device t) : b.release.Serves device t := by
  cases hs : b.session with
  | none => simpa [Bench.release, hs] using h
  | some s =>
      have hclosed := h.close hs
      have hheld := hclosed.held
      refine ⟨?_, ?_, ?_, ?_⟩
      · simpa [Bench.release, hs] using hclosed.token
      · simpa [Bench.release, hs] using hclosed.available
      · simpa [Bench.release, hs] using hclosed.responses
      · by_cases ho : s.isOpen = true
        · simpa [Bench.release, hs, holding, Session.holding, Session.close, ho]
            using hheld
        · simpa [Bench.release, hs, holding, Session.holding, Session.close, ho]
            using hheld

/-- A session is taken before the one that was held is given back, and the two
are never on the same capability. -/
theorem acquire (h : b.Serves device t) {c : Capability} {b' : Bench}
    (hb : b.acquire c = .ok b') : b'.Serves device t := by
  unfold Bench.acquire at hb
  cases ha : b.platform.acquire c with
  | error e => simp [ha] at hb
  | ok out =>
      obtain ⟨s, p⟩ := out
      obtain ⟨-, hfree, rfl, rfl⟩ := Device.Platform.acquire_eq_ok.1 ha
      simp only [ha, Except.ok.injEq] at hb
      subst hb
      have hheld := h.held
      cases hs : b.session with
      | none =>
          simp only [holding, hs] at hheld
          refine ⟨?_, ?_, ?_, ?_⟩
          · simpa [Bench.release, hs] using h.token
          · simpa [Bench.release, hs] using h.available
          · simpa [Bench.release, hs] using h.responses
          · simp [Bench.release, hheld, holding, Session.holding,
              Device.CapabilitySet.insert, Ordered.add]
      | some old =>
          simp only [holding, hs, Session.holding] at hheld
          by_cases ho : old.isOpen = true
          · have hne : c ≠ old.capability := by
              simpa [hheld, ho] using hfree
            have hkept : (Ordered.add c [old.capability]).filter
                (· != old.capability) = [c] := by
              unfold Ordered.add
              split
              · contradiction
              · split <;> simp [Ordered.add, hne]
            refine ⟨?_, ?_, ?_, ?_⟩
            · simpa [Bench.release, hs, Session.close, ho] using h.token
            · simpa [Bench.release, hs, Session.close, ho, Platform.giveBack]
                using h.available
            · simpa [Bench.release, hs, Session.close, ho, Platform.giveBack]
                using h.responses
            · simp [Bench.release, hheld, holding, Session.holding, Session.close,
                ho, Platform.giveBack, Device.CapabilitySet.insert, hkept]
          · refine ⟨?_, ?_, ?_, ?_⟩
            · simpa [Bench.release, hs, Session.close, ho] using h.token
            · simpa [Bench.release, hs, Session.close, ho] using h.available
            · simpa [Bench.release, hs, Session.close, ho] using h.responses
            · simp [Bench.release, hheld, holding, Session.holding, Session.close,
                ho, Device.CapabilitySet.insert, Ordered.add]

/-- When nobody is on the device, all that is required and not missing is free. -/
theorem free_of_required (h : b.Serves device t) (hs : b.session = none)
    {required : Device.CapabilitySet} (hoffered : device.profile.missing required = [])
    {c : Capability} (hc : c ∈ required.members) :
    c ∈ b.platform.available.members ∧ c ∉ b.platform.held.members := by
  constructor
  · rw [h.available]
    by_contra hnot
    have hmissing : c ∈ device.profile.missing required :=
      Device.CapabilitySet.mem_missing.2 ⟨hc, hnot⟩
    rw [hoffered] at hmissing
    cases hmissing
  · rw [h.held, holding, hs]
    exact List.not_mem_nil

end Bench.Serves

/-! ## Any code -/

section Runs

variable {device : Script} {t : CancelToken}

theorem Preparation.serves_run (p : Preparation) {b : Bench} (h : b.Serves device b.token) :
    (p.run b).2.Serves device (p.run b).2.token := by
  induction p generalizing b with
  | ready | skip r | panic q => exact h
  | cancel next ih => exact ih h.cancel
  | sleep ms next ih => exact ih (h.sleep ms)
  | acquire c next ih =>
      simp only [run]
      cases hb : b.acquire c with
      | error r => exact h
      | ok b' =>
          have hnext := h.acquire hb
          exact ih (hnext.token.symm ▸ hnext)

theorem Cleanup.serves_run (p : Cleanup) {b : Bench} (h : b.Serves device b.token) :
    (p.run b).2.Serves device (p.run b).2.token := by
  induction p generalizing b with
  | done | panic q => exact h
  | cancel next ih => exact ih h.cancel
  | sleep ms next ih => exact ih (h.sleep ms)
  | release next ih =>
      have hnext := h.release
      exact ih (hnext.token.symm ▸ hnext)

namespace Program

variable {α : Type} {p q : Point α}

theorem Step.serves (h : Step p q) (hp : p.bench.Serves device p.bench.token) :
    q.bench.Serves device q.bench.token := by
  cases h with
  | cancel next c b => exact hp.cancel
  | sleep ms next c b => exact hp.sleep ms
  | look | record | headline => exact hp
  | @send r next c b s s' platform hs hsend =>
      obtain ⟨-, hs', rfl⟩ := Session.send_eq_ok.1 hsend
      have hkept : s'.capability = s.capability ∧ s'.isOpen = s.isOpen := by
        rw [hs']
        exact ⟨rfl, rfl⟩
      exact hp.replace hs s' hkept.1 hkept.2 b.clock _
  | @gather enough next c b s s' seen now hs hgather =>
      have hkeeps := gather_keeps enough c.deadline b.token [] s b.clock
      rw [hgather] at hkeeps
      exact hp.replace hs s' hkeeps.1 hkeeps.2 now _
  | release next c hs => exact hp.close hs

theorem Halt.serves {f : Finish α} (h : Halt p f) (hp : p.bench.Serves device p.bench.token) :
    f.bench.Serves device f.bench.token := by
  cases h with
  | returned | failed | panicked | record | headline | adrift | send => exact hp
  | @gather enough next c b s s' e now hs hgather =>
      have hkeeps := gather_keeps enough c.deadline b.token [] s b.clock
      rw [hgather] at hkeeps
      exact hp.replace hs s' hkeeps.1 hkeeps.2 now _

theorem serves_run (code : Program α) (c : Context) {b : Bench}
    (h : b.Serves device b.token) :
    (code.run c b).bench.Serves device (code.run c b).bench.token :=
  finish_induction (P := fun p => p.bench.Serves device p.bench.token)
    (Q := fun f => f.bench.Serves device f.bench.token)
    (fun _ _ hp hstep => hstep.serves hp) (fun _ _ hp hhalt => hhalt.serves hp)
    (p := ⟨code, c, b⟩) h

end Program

/-! ## Code that never cancels -/

/-- No step of the code cancels the suite. -/
def Preparation.Calm : Preparation → Prop
  | ready | skip _ | panic _ => True
  | cancel _ => False
  | sleep _ next | acquire _ next => next.Calm

def Program.Calm {α : Type} : Program α → Prop
  | pure _ | fail _ | panic _ => True
  | cancel _ => False
  | sleep _ next | record _ next | headline _ next | send _ next | release next =>
      next.Calm
  | look next => ∀ v, (next v).Calm
  | gather _ next => ∀ seen, (next seen).Calm

theorem Preparation.Calm.token_run {p : Preparation} (hp : p.Calm) (b : Bench) :
    (p.run b).2.token = b.token := by
  induction p generalizing b with
  | ready | skip r | panic q => rfl
  | cancel next ih => exact hp.elim
  | sleep ms next ih => exact ih hp (b.sleep ms)
  | acquire c next ih =>
      simp only [Preparation.run]
      cases hb : b.acquire c with
      | error r => rfl
      | ok b' => exact (ih hp b').trans (Bench.token_acquire hb)

theorem Preparation.Calm.run {p : Preparation} (hp : p.Calm) {b : Bench}
    (h : b.Serves device t) : (p.run b).2.Serves device t := by
  have hrun := p.serves_run (h.token.symm ▸ h)
  rw [hp.token_run, h.token] at hrun
  exact hrun

theorem Program.Step.calm {α : Type} {p q : Point α} (h : Step p q) (hp : p.rest.Calm) :
    q.rest.Calm ∧ q.bench.token = p.bench.token := by
  cases h with
  | cancel => exact hp.elim
  | sleep | record | headline | send | release => exact ⟨hp, rfl⟩
  | look | gather => exact ⟨hp _, rfl⟩

theorem Program.Calm.run {α : Type} {code : Program α} (hcode : code.Calm) {c : Context}
    {b : Bench} (h : b.Serves device t) : (code.run c b).bench.Serves device t := by
  have htoken : (code.run c b).bench.token = t :=
    finish_induction (P := fun p => p.rest.Calm ∧ p.bench.token = t)
      (Q := fun f => f.bench.token = t)
      (fun p q hp hstep => ⟨(hstep.calm hp.1).1, (hstep.calm hp.1).2.trans hp.2⟩)
      (fun p f hp hhalt => by cases hhalt <;> exact hp.2)
      (p := ⟨code, c, b⟩) ⟨hcode, h.token⟩
  have hrun := code.serves_run c (h.token.symm ▸ h)
  rw [htoken] at hrun
  exact hrun

end Runs

/-- A check that neither cancels its suite nor keeps its session. -/
structure TestCase.GivesBack (c : TestCase) : Prop where
  prepare : c.prepare.Calm
  execute : c.execute.Calm
  cleanup : c.cleanup = .release .done

theorem Discovery.conclude_calm (d : Discovery) (seen : List Sighting) :
    (d.conclude seen).Calm := by
  unfold conclude
  split
  · trivial
  · split
    · trivial
    · split
      · trivial
      · simp only
        split <;> trivial

theorem Discovery.toCase_givesBack (d : Discovery) (id : TestId)
    (extra : Device.CapabilitySet) : (d.toCase id extra).GivesBack where
  prepare := trivial
  execute := by
    intro v
    by_cases hv : v.hasSession = true
    · simpa [hv, Program.Calm] using d.conclude_calm
    · simp [hv, Program.Calm]
  cleanup := rfl

theorem Link.conclude_calm (l : Link) (s : Sighting) : (l.conclude s).Calm := by
  unfold conclude
  split
  · split <;> trivial
  · trivial
  · trivial
  · trivial

theorem Link.toCase_givesBack (l : Link) (id : TestId)
    (extra : Device.CapabilitySet) : (l.toCase id extra).GivesBack where
  prepare := trivial
  execute := by
    intro v
    by_cases hv : v.hasSession = true
    · simp only [hv, ↓reduceIte]
      intro seen
      cases hlast : seen.getLast? with
      | none => simp [hlast, Program.Calm]
      | some s => simpa [hlast] using l.conclude_calm s
    · simp [hv, Program.Calm]
  cleanup := rfl

end Compliance.Check

namespace Compliance.Suite

theorem Entry.toCase_givesBack {e : Entry} {c : Check.TestCase}
    (h : e.toCase = .ok c) : c.GivesBack := by
  rcases Entry.toCase_cases h with ⟨-, d, -, -, -, rfl⟩ | ⟨-, l, -, -, -, rfl⟩
  · exact d.toCase_givesBack e.id e.requires
  · exact l.toCase_givesBack e.id e.requires

end Compliance.Suite
