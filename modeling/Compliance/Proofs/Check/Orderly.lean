import Compliance.Proofs.Check.Recording
import Compliance.Proofs.Check.Signals
import Compliance.Proofs.Device.Script
import Compliance.Proofs.Number.Arithmetic

/-!
# Orderly checks

An orderly check fails for what the device did, for the time it took or for a
cancellation, and for nothing that lies in the check.  It records every metric
once and keeps its session.  The checks of the registry are orderly, and no
signal can make an orderly check disorderly.
-/

namespace Compliance.Report

theorem MetricValue.isFinite_single {x : Number.Binary64} (h : x.isFinite = true) :
    (single x).isFinite = true := by
  simp [isFinite, samples, h]

theorem MetricValue.isFinite_single_ofNat {n : Nat} (h : n < 2 ^ 64) :
    (single (.ofNat n)).isFinite = true :=
  isFinite_single (Number.Binary64.isFinite_ofNat h)

theorem MetricValue.isFinite_single_asMillis {ms : Nat} (h : ms < 2 ^ 64) :
    (single (Time.Duration.ofMillis ms).asMillis).isFinite = true :=
  isFinite_single (Time.Duration.isFinite_asMillis h)

namespace Log

variable {log : Log} {m : Metric}

theorem exists_add (hfinite : m.value.isFinite = true)
    (hnew : ∀ e ∈ log.details, e.1 ≠ m.name) : ∃ log', log.add m = .ok log' := by
  have hnone : log.detail? m.name = none := by
    rw [Option.eq_none_iff_forall_not_mem]
    intro found hfound
    exact hnew _ (Ordered.mem_of_find? hfound) rfl
  simp [add, hfinite, hnone]

theorem exists_setHeadline (hfinite : m.value.isFinite = true)
    (hnone : log.headline.isSome = false) : ∃ log', log.setHeadline m = .ok log' := by
  simp [setHeadline, hfinite, hnone]

end Log

end Compliance.Report

namespace Compliance.Check

open Compliance.Device (Capability Script Session)

/-- Causes that are not the fault of the check. -/
def FailureCause.isFinding : FailureCause → Bool
  | timedOut | protocolMismatch | unexpectedResponse | cancelled => true
  | platform | duplicateMetric | invalidMetric | panicked => false

/-- The ending of a check that did nothing wrong. -/
def Ending.IsFinding {α : Type} : Ending Failure α → Prop
  | returned _ => True
  | stopped f => f.cause.isFinding = true
  | panicked _ => False

/-- An event of the script, seen in time. -/
structure Sighting.Within (script : Script) (limit : Nat) (s : Sighting) : Prop where
  event : s.event ∈ script.events
  elapsed : s.elapsed ≤ limit

/-! ## What a wait comes to -/

section Waiting

variable {d : Deadline} {t : CancelToken} {s s' : Session} {now now' : Nat}

theorem isFinding_of_awaitEvent {f : Failure} (h : awaitEvent d t s now = (.error f, s', now')) :
    f.cause.isFinding = true := by
  fun_induction awaitEvent d t s now with
  | case1 | case2 =>
      cases h
      rfl
  | case3 => cases h
  | case4 now _ _ _ _ _ ih => exact ih h

theorem mem_of_awaitEvent {e : Device.Event} (h : awaitEvent d t s now = (.ok e, s', now')) :
    (∃ due ∈ s.queue, due.event = e) ∧ s'.queue ⊆ s.queue ∧ now' ≤ d.time := by
  fun_induction awaitEvent d t s now with
  | case1 | case2 => cases h
  | case3 now _ hexpired e s' now' hnext =>
      cases h
      obtain ⟨due, rest, hqueue, htime, rfl, rfl, rfl⟩ := Session.next_eq_some hnext
      have hopen := isExpired_eq_false_iff.1 (Bool.eq_false_of_not_eq_true hexpired)
      have hslice := add_slice_le hopen
      rw [hqueue]
      refine ⟨⟨due, List.mem_cons_self, rfl⟩, List.subset_cons_self due rest, ?_⟩
      omega
  | case4 now _ _ _ _ _ ih => exact ih h

theorem isFinding_of_gather {enough : List Sighting → Bool} {seen : List Sighting}
    {f : Failure} (h : gather enough d t seen s now = (.error f, s', now')) :
    f.cause.isFinding = true := by
  fun_induction gather enough d t seen s now with
  | case1 seen s now f' s'' now'' hawait =>
      cases h
      exact isFinding_of_awaitEvent hawait
  | case2 => cases h
  | case3 seen s now e s'' now'' hawait seen' hen ih => exact ih h

/-- What is seen comes from the queue and is seen in time. -/
theorem within_of_gather {enough : List Sighting → Bool} {script : Script}
    {seen found : List Sighting} (hqueue : ∀ due ∈ s.queue, due.event ∈ script.events)
    (hseen : ∀ x ∈ seen, x.Within script d.timeouts.test)
    (h : gather enough d t seen s now = (.ok found, s', now')) :
    found ≠ [] ∧ (∀ x ∈ found, x.Within script d.timeouts.test) ∧ s'.queue ⊆ s.queue := by
  have hgrown {seen : List Sighting} {s s'' : Session} {now now'' : Nat} {e : Device.Event}
      (hqueue : ∀ due ∈ s.queue, due.event ∈ script.events)
      (hseen : ∀ x ∈ seen, x.Within script d.timeouts.test)
      (hawait : awaitEvent d t s now = (.ok e, s'', now'')) :
      ∀ x ∈ seen ++ [⟨e, d.elapsed now''⟩], x.Within script d.timeouts.test := by
    obtain ⟨⟨due, hdue, rfl⟩, -, htime⟩ := mem_of_awaitEvent hawait
    intro x hx
    rcases List.mem_append.1 hx with hx | hx
    · exact hseen x hx
    · rw [List.mem_singleton.1 hx]
      refine ⟨hqueue due hdue, ?_⟩
      simp only [Deadline.elapsed, Deadline.time] at htime ⊢
      omega
  fun_induction gather enough d t seen s now with
  | case1 => cases h
  | case2 seen s now e s'' now'' hawait seen' hen =>
      simp only [Prod.mk.injEq, Except.ok.injEq] at h
      obtain ⟨rfl, rfl, rfl⟩ := h
      refine ⟨by simp [seen'], hgrown hqueue hseen hawait, (mem_of_awaitEvent hawait).2.1⟩
  | case3 seen s now e s'' now'' hawait seen' hen ih =>
      have hsubset := (mem_of_awaitEvent hawait).2.1
      obtain ⟨hne, hall, hrest⟩ := ih (fun due hdue => hqueue due (hsubset hdue))
        (hgrown hqueue hseen hawait) h
      exact ⟨hne, hall, fun due hdue => hsubset (hrest hdue)⟩

end Waiting

/-! ## Orderly code -/

namespace Program

variable {α : Type}

/-- Code that only fails by rights, never closes its session, and records finite
values under names that are new, with one headline at most. -/
def Orderly (sighted : Sighting → Prop) : List String → Bool → Program α → Prop
  | _, _, pure _ => True
  | _, _, fail f => f.cause.isFinding = true
  | _, _, panic _ | _, _, release _ => False
  | used, headed, cancel next | used, headed, sleep _ next | used, headed, send _ next =>
      next.Orderly sighted used headed
  | used, headed, look next =>
      ∀ v, v.hasSession = true → (next v).Orderly sighted used headed
  | used, headed, record m next =>
      m.value.isFinite = true ∧ m.name ∉ used ∧
        next.Orderly sighted (m.name :: used) headed
  | used, headed, headline m next =>
      m.value.isFinite = true ∧ headed = false ∧ next.Orderly sighted used true
  | used, headed, gather _ next =>
      ∀ seen, seen ≠ [] → (∀ x ∈ seen, sighted x) → (next seen).Orderly sighted used headed

/-- No signal makes code disorderly. -/
theorem Orderly.signalled {sighted : Sighting → Prop} {used : List String} {headed : Bool}
    {p p' : Program α} (hp : p.Orderly sighted used headed) (h : p.Signalled p') :
    p'.Orderly sighted used headed := by
  induction h generalizing used headed with
  | same p => exact hp
  | now h ih | cancel h ih | sleep ms h ih | asleep ms h ih | send r h ih => exact ih hp
  | look h ih => exact fun v hv => ih v (hp v hv)
  | record m h ih => exact ⟨hp.1, hp.2.1, ih hp.2.2⟩
  | headline m h ih => exact ⟨hp.1, hp.2.1, ih hp.2.2⟩
  | gather enough h ih => exact fun seen hne hall => ih seen (hp seen hne hall)
  | unheard ms enough next => exact hp
  | cutShort events ms enough h ih =>
      intro seen hne hall
      have hnext (seen : List Sighting) (hne : seen ≠ []) (hall : ∀ x ∈ seen, sighted x) :=
        ih seen (hp seen hne hall)
      simp only
      split
      · exact hnext seen hne hall
      · exact hnext
  | release h ih => exact hp.elim

/-- Where orderly code stands: it has an open session that only holds events of
the script, and everything in its log has been accounted for. -/
structure Point.Orderly (script : Script) (limit : Nat) (p : Point α) : Prop where
  session : ∃ s, p.bench.session = some s ∧ s.isOpen = true ∧
    ∀ due ∈ s.queue, due.event ∈ script.events
  responses : p.bench.platform.responses = script.responses
  deadline : p.context.deadline.timeouts.test = limit
  code : ∃ used headed, p.rest.Orderly (Sighting.Within script limit) used headed ∧
    (∀ e ∈ p.context.log.details, e.1 ∈ used) ∧
    (p.context.log.headline.isSome = true → headed = true)

variable {script : Script} {limit : Nat} {p q : Point α}

theorem Step.orderly (h : Step p q) (hp : p.Orderly script limit) :
    q.Orderly script limit := by
  obtain ⟨⟨s, hs, hopen, hqueue⟩, hresponses, hlimit, used, headed, hcode, hused, hheaded⟩ := hp
  cases h with
  | cancel | sleep =>
      exact ⟨⟨s, hs, hopen, hqueue⟩, hresponses, hlimit, used, headed, hcode, hused, hheaded⟩
  | look next c b =>
      have hsession : (c.view b).hasSession = true := by
        simp only [Context.view]
        exact hs ▸ rfl
      exact ⟨⟨s, hs, hopen, hqueue⟩, hresponses, hlimit, used, headed, hcode _ hsession, hused,
        hheaded⟩
  | @record m next c b log hadd =>
      obtain ⟨-, -, hnext⟩ := hcode
      obtain ⟨-, rfl⟩ := Report.Log.add_eq_ok hadd
      refine ⟨⟨s, hs, hopen, hqueue⟩, hresponses, hlimit, m.name :: used, headed, hnext, ?_,
        hheaded⟩
      intro e he
      rcases Ordered.key_of_mem_put he with rfl | he
      · exact List.mem_cons_self
      · exact List.mem_cons_of_mem _ (hused e he)
  | @headline m next c b log hset =>
      obtain ⟨-, -, hnext⟩ := hcode
      obtain ⟨-, -, rfl⟩ := Report.Log.setHeadline_eq_ok hset
      exact ⟨⟨s, hs, hopen, hqueue⟩, hresponses, hlimit, used, true, hnext, hused, fun _ => rfl⟩
  | @send r next c b s₁ s' platform hs₁ hsend =>
      cases hs.symm.trans hs₁
      obtain ⟨-, rfl, rfl⟩ := Session.send_eq_ok.1 hsend
      refine ⟨⟨_, rfl, hopen, ?_⟩, hresponses, hlimit, used, headed, hcode, hused, hheaded⟩
      intro due hdue
      rcases Device.mem_enqueueAll.1 hdue with hdue | hdue
      · exact Device.Platform.event_mem_of_answersTo hresponses hdue
      · exact hqueue due hdue
  | @gather enough next c b s₁ s' seen now hs₁ hgather =>
      cases hs.symm.trans hs₁
      have hkeeps := gather_keeps enough c.deadline b.token [] s b.clock
      rw [hgather] at hkeeps
      obtain ⟨hne, hall, hrest⟩ := within_of_gather hqueue (by simp) hgather
      rw [show c.deadline.timeouts.test = limit from hlimit] at hall
      exact ⟨⟨s', rfl, hkeeps.2.trans hopen, fun due hdue => hqueue due (hrest hdue)⟩,
        hresponses, hlimit, used, headed, hcode seen hne hall, hused, hheaded⟩
  | release => exact hcode.elim

theorem Halt.isFinding {f : Finish α} (h : Halt p f) (hp : p.Orderly script limit) :
    f.ending.IsFinding := by
  obtain ⟨⟨s, hs, hopen, hqueue⟩, hresponses, hlimit, used, headed, hcode, hused, hheaded⟩ := hp
  cases h with
  | returned => trivial
  | failed => exact hcode
  | panicked => exact hcode.elim
  | @record m next c b e hadd =>
      obtain ⟨hfinite, hnew, -⟩ := hcode
      obtain ⟨log, hlog⟩ := Report.Log.exists_add hfinite fun e he heq => hnew (heq ▸ hused e he)
      cases hlog.symm.trans hadd
  | @headline m next c b e hset =>
      obtain ⟨hfinite, hnot, -⟩ := hcode
      have hnone : c.log.headline.isSome = false := by
        rw [Bool.eq_false_iff]
        exact fun hsome => Bool.false_ne_true (hnot.symm.trans (hheaded hsome))
      obtain ⟨log, hlog⟩ := Report.Log.exists_setHeadline hfinite hnone
      cases hlog.symm.trans hset
  | adrift hcode c hs₁ => cases hs.symm.trans hs₁
  | send next c hs₁ hsend =>
      cases hs.symm.trans hs₁
      rw [Session.send_of_open hopen] at hsend
      cases hsend
  | gather next hs₁ hgather => exact isFinding_of_gather hgather

theorem Point.Orderly.isFinding_run {code : Program α} {c : Context} {b : Bench}
    (h : Point.Orderly script limit ⟨code, c, b⟩) : (code.run c b).ending.IsFinding :=
  finish_induction (P := Point.Orderly script limit) (Q := fun f => f.ending.IsFinding)
    (fun _ _ hp hstep => hstep.orderly hp) (fun _ _ hp hhalt => hhalt.isFinding hp)
    (p := ⟨code, c, b⟩) h

end Program

/-! ## Orderly cases -/

/-- Preparation that lets time pass. -/
def Preparation.Idle : Preparation → Prop
  | ready => True
  | skip _ | panic _ | acquire _ _ => False
  | cancel next | sleep _ next => next.Idle

/-- Preparation that takes a session on a capability. -/
def Preparation.Takes (capability : Capability) : Preparation → Prop
  | ready | skip _ | panic _ => False
  | cancel next | sleep _ next => next.Takes capability
  | acquire c next => c = capability ∧ next.Idle

namespace Preparation

variable {p p' : Preparation} {capability : Capability}

theorem Idle.signalled (hp : p.Idle) (h : p.Signalled p') : p'.Idle := by
  induction h with
  | same p => exact hp
  | now h ih | cancel h ih | sleep ms h ih | asleep ms h ih => exact ih hp
  | acquire c h ih => exact hp.elim

theorem Takes.signalled (hp : p.Takes capability) (h : p.Signalled p') :
    p'.Takes capability := by
  induction h with
  | same p => exact hp
  | now h ih | cancel h ih | sleep ms h ih | asleep ms h ih => exact ih hp
  | acquire c h ih => exact ⟨hp.1, hp.2.signalled h⟩

theorem Idle.run (hp : p.Idle) (b : Bench) : (p.run b).1 = .returned () ∧
    (p.run b).2.session = b.session ∧ (p.run b).2.platform = b.platform := by
  induction p generalizing b with
  | ready => exact ⟨rfl, rfl, rfl⟩
  | skip | panic | acquire => exact hp.elim
  | cancel next ih => exact ih hp b.cancel
  | sleep ms next ih => exact ih hp (b.sleep ms)

/-- On a device that has the capability, with nobody on it, the session is
taken. -/
theorem Takes.run (hp : p.Takes capability) {b : Bench} (hs : b.session = none)
    (ha : capability ∈ b.platform.available.members)
    (hf : capability ∉ b.platform.held.members) :
    (p.run b).1 = .returned () ∧ (p.run b).2.session = some ⟨capability, [], true⟩ ∧
      (p.run b).2.platform.responses = b.platform.responses := by
  induction p generalizing b with
  | ready | skip | panic => exact hp.elim
  | cancel next ih => exact ih hp hs ha hf
  | sleep ms next ih => exact ih hp hs ha hf
  | acquire c next ih =>
      obtain ⟨rfl, hidle⟩ := hp
      have hacquire := Device.Platform.acquire_eq_ok.2 ⟨ha, hf, rfl, rfl⟩
      simp only [Preparation.run, Bench.acquire, hacquire, Bench.release, hs]
      obtain ⟨hreturned, hsession, hplatform⟩ := hidle.run _
      exact ⟨hreturned, hsession, (congrArg Device.Platform.responses hplatform).trans rfl⟩

end Preparation

/-- Cleanup that does not break down. -/
def Cleanup.Idle : Cleanup → Prop
  | done => True
  | panic _ => False
  | cancel next | sleep _ next | release next => next.Idle

/-- Cleanup that gives the session back. -/
def Cleanup.GivesBack : Cleanup → Prop
  | done | panic _ => False
  | cancel next | sleep _ next => next.GivesBack
  | release next => next.Idle

namespace Cleanup

variable {p p' : Cleanup}

theorem Idle.signalled (hp : p.Idle) (h : p.Signalled p') : p'.Idle := by
  induction h with
  | same p => exact hp
  | now h ih | cancel h ih | sleep ms h ih | asleep ms h ih | release h ih => exact ih hp

theorem GivesBack.signalled (hp : p.GivesBack) (h : p.Signalled p') : p'.GivesBack := by
  induction h with
  | same p => exact hp
  | now h ih | cancel h ih | sleep ms h ih | asleep ms h ih => exact ih hp
  | release h ih => exact Idle.signalled hp h

theorem Idle.run (hp : p.Idle) {b : Bench} (hs : b.session = none) :
    (p.run b).1 = none ∧ (p.run b).2.session = none := by
  induction p generalizing b with
  | done => exact ⟨rfl, hs⟩
  | panic => exact hp.elim
  | cancel next ih => exact ih hp hs
  | sleep ms next ih => exact ih hp hs
  | release next ih => exact ih hp b.session_release

theorem GivesBack.run (hp : p.GivesBack) (b : Bench) :
    (p.run b).1 = none ∧ (p.run b).2.session = none := by
  induction p generalizing b with
  | done | panic => exact hp.elim
  | cancel next ih => exact ih hp b.cancel
  | sleep ms next ih => exact ih hp (b.sleep ms)
  | release next ih => exact Idle.run hp b.session_release

end Cleanup

/-- A case that takes one session, on something it requires, and gives it back. -/
structure TestCase.Borrows (c : TestCase) : Prop where
  prepare : ∃ capability ∈ c.requires.members, c.prepare.Takes capability
  cleanup : c.cleanup.GivesBack

/-- A case that borrows its session and does nothing wrong with it. -/
structure TestCase.Orderly (script : Script) (limit : Nat) (c : TestCase) : Prop
    extends c.Borrows where
  execute : c.execute.Orderly (Sighting.Within script limit) [] false

namespace TestCase

variable {c c' : TestCase}

theorem Borrows.signalled (hc : c.Borrows) (h : c.Signalled c') : c'.Borrows := by
  obtain ⟨⟨capability, hmem, htakes⟩, hcleanup⟩ := hc
  refine ⟨⟨capability, ?_, htakes.signalled h.prepare⟩, hcleanup.signalled h.cleanup⟩
  rw [h.requires]
  exact hmem

theorem Orderly.signalled {script : Script} {limit : Nat} (hc : c.Orderly script limit)
    (h : c.Signalled c') : c'.Orderly script limit :=
  ⟨hc.toBorrows.signalled h, hc.execute.signalled h.execute⟩

end TestCase

/-! ## The checks of the registry -/

section Registry

variable {script : Script} {limit : Nat}

namespace Discovery

variable (d : Discovery)

theorem cause_of_txtFault? {instanceName : String} {given : List (String × String)}
    {f : Failure} (h : d.txtFault? instanceName given = some f) :
    f.cause = .protocolMismatch := by
  obtain ⟨entry, -, hentry⟩ := List.exists_of_findSome?_eq_some h
  dsimp only at hentry
  split at hentry
  · split at hentry
    · cases hentry
    · cases hentry
      rfl
  · cases hentry
    rfl

theorem isFinding_of_bearing {e : Device.Event} {f : Failure}
    (h : d.bearing e = .offending f) : f.cause.isFinding = true := by
  unfold bearing at h
  split at h
  case h_2 => cases h
  case h_3 | h_4 =>
      cases h
      rfl
  case h_1 family service instanceName txt =>
      split at h
      · split at h
        · cases h
          rfl
        · split at h
          · rename_i hfault
            cases h
            rw [d.cause_of_txtFault? hfault]
            rfl
          · cases h
      · split at h
        · cases h
        · cases h
          rfl

theorem reported_concat (seen : List Sighting) (s : Sighting) :
    d.reported (seen ++ [s]) = match d.accepted? s with
      | some i => if (d.reported seen).contains i then d.reported seen
          else d.reported seen ++ [i]
      | none => d.reported seen := by
  simp only [reported, List.foldl_append, List.foldl_cons, List.foldl_nil]
  rfl

theorem nodup_reported (seen : List Sighting) : (d.reported seen).Nodup := by
  induction seen using List.reverseRecOn with
  | nil => exact List.nodup_nil
  | append_singleton seen s ih =>
      rw [reported_concat]
      split
      · split
        · exact ih
        · rename_i i _ hnew
          refine ih.append (List.nodup_singleton i) ?_
          simpa using hnew
      · exact ih

theorem exists_of_mem_reported {seen : List Sighting} {i : String} (h : i ∈ d.reported seen) :
    ∃ s ∈ seen, d.accepted? s = some i := by
  induction seen using List.reverseRecOn with
  | nil => cases h
  | append_singleton seen s ih =>
      rw [reported_concat] at h
      have hbefore (h : i ∈ d.reported seen) : ∃ s' ∈ seen ++ [s], d.accepted? s' = some i :=
        (ih h).imp fun s' hs' => ⟨List.mem_append_left _ hs'.1, hs'.2⟩
      split at h
      · rename_i last hlast
        split at h
        · exact hbefore h
        · rcases List.mem_append.1 h with h | h
          · exact hbefore h
          · exact ⟨s, by simp, by rw [hlast, List.mem_singleton.1 h]⟩
      · exact hbefore h

theorem length_reported_le {seen : List Sighting}
    (hseen : ∀ x ∈ seen, x.Within script limit) :
    (d.reported seen).length ≤ script.events.length := by
  have hsubset : d.reported seen ⊆ script.events.filterMap fun e => d.accepted? ⟨e, 0⟩ := by
    intro i hi
    obtain ⟨s, hs, haccepted⟩ := d.exists_of_mem_reported hi
    exact List.mem_filterMap.2 ⟨s.event, (hseen s hs).event, haccepted⟩
  exact (List.subperm_of_subset (d.nodup_reported seen) hsubset).length_le.trans
    (List.length_filterMap_le _ _)

theorem conclude_orderly (hfits : script.Fits) (hlimit : limit < 2 ^ 64)
    {seen : List Sighting} (hseen : ∀ x ∈ seen, x.Within script limit) :
    (d.conclude seen).Orderly (Sighting.Within script limit) [] false := by
  unfold conclude
  split
  · rename_i hlast
    obtain ⟨s, -, hs⟩ := Option.map_eq_some_iff.1 hlast
    exact d.isFinding_of_bearing hs
  · split
    · exact ⟨Report.MetricValue.isFinite_single_ofNat (by decide), by simp, trivial⟩
    · split
      · rfl
      · rename_i first hfirst
        have hfound := (d.length_reported_le hseen).trans_lt hfits.few
        have hfirst := (hseen first (List.mem_of_find?_eq_some hfirst)).elapsed.trans_lt hlimit
        simp only
        split
        · refine ⟨Report.MetricValue.isFinite_single_asMillis hfirst, by simp, ?_⟩
          exact ⟨Report.MetricValue.isFinite_single_ofNat hfound, by simp [countMetric, latencyMetric], trivial⟩
        · rfl

theorem toCase_borrows (id : Report.TestId) (extra : Device.CapabilitySet) :
    (d.toCase id extra).Borrows where
  prepare := by
    refine ⟨.serviceDiscovery, ?_, rfl, trivial⟩
    simp [toCase, requirements]
  cleanup := trivial

theorem toCase_orderly (hfits : script.Fits) (hlimit : limit < 2 ^ 64)
    (id : Report.TestId) (extra : Device.CapabilitySet) :
    (d.toCase id extra).Orderly script limit where
  toBorrows := d.toCase_borrows id extra
  execute := by
    intro v hv
    simp only [hv, ↓reduceIte]
    exact fun seen _ hseen => d.conclude_orderly hfits hlimit hseen

end Discovery

namespace Link

variable (l : Link)

theorem isFinding_of_fault? {address : String} {encrypted : Bool} {mtu : Nat} {f : Failure}
    (h : l.fault? address encrypted mtu = some f) : f.cause.isFinding = true := by
  unfold fault? at h
  split at h
  · cases h
    rfl
  · split at h
    · cases h
      rfl
    · split at h
      · cases h
      · split at h
        · cases h
          rfl
        · cases h

theorem conclude_orderly (hfits : script.Fits) (hlimit : limit < 2 ^ 64)
    {s : Sighting} (hs : s.Within script limit) :
    (l.conclude s).Orderly (Sighting.Within script limit) [] false := by
  unfold conclude
  split
  · rename_i address encrypted mtu hevent
    split
    · rename_i f hfault
      exact l.isFinding_of_fault? hfault
    · refine ⟨Report.MetricValue.isFinite_single_asMillis (hs.elapsed.trans_lt hlimit), rfl, ?_⟩
      have hmtu := hfits.mtu address encrypted mtu (hevent ▸ hs.event)
      exact ⟨Report.MetricValue.isFinite_single_ofNat hmtu, by simp, trivial⟩
  all_goals rfl

theorem channel_mem_requires (id : Report.TestId) (extra : Device.CapabilitySet) :
    channel l.secure ∈ (l.toCase id extra).requires.members := by
  cases hsecure : l.secure <;> simp [toCase, requirements, channel, hsecure]

theorem toCase_borrows (id : Report.TestId) (extra : Device.CapabilitySet) :
    (l.toCase id extra).Borrows where
  prepare := ⟨channel l.secure, l.channel_mem_requires id extra, rfl, trivial⟩
  cleanup := trivial

theorem toCase_orderly (hfits : script.Fits) (hlimit : limit < 2 ^ 64)
    (id : Report.TestId) (extra : Device.CapabilitySet) :
    (l.toCase id extra).Orderly script limit where
  toBorrows := l.toCase_borrows id extra
  execute := by
    intro v hv
    simp only [hv, ↓reduceIte]
    intro seen hne hseen
    simp only [List.getLast?_eq_some_getLast hne]
    exact l.conclude_orderly hfits hlimit (hseen _ (List.getLast_mem hne))

end Link

end Registry

end Compliance.Check

namespace Compliance.Suite

theorem Entry.toCase_borrows {e : Entry} {c : Check.TestCase} (h : e.toCase = .ok c) :
    c.Borrows := by
  rcases Entry.toCase_cases h with ⟨-, d, -, -, -, rfl⟩ | ⟨-, l, -, -, -, rfl⟩
  · exact d.toCase_borrows e.id e.requires
  · exact l.toCase_borrows e.id e.requires

theorem Entry.toCase_orderly {e : Entry} {c : Check.TestCase} {script : Device.Script}
    {limit : Nat} (h : e.toCase = .ok c) (hfits : script.Fits) (hlimit : limit < 2 ^ 64) :
    c.Orderly script limit := by
  rcases Entry.toCase_cases h with ⟨-, d, -, -, -, rfl⟩ | ⟨-, l, -, -, -, rfl⟩
  · exact d.toCase_orderly hfits hlimit e.id e.requires
  · exact l.toCase_orderly hfits hlimit e.id e.requires

end Compliance.Suite
