import Mathlib.Data.List.MinMax
import Mathlib.Tactic.Common
import Compliance.Check.Link
import Compliance.Proofs.Check.Orderly
import Compliance.Proofs.Device.Deliveries

/-!
# What a link check comes to

A link check sends one request and waits for the first event that answers it.
When the event comes by the deadline, the check is decided by it alone.
-/

namespace Compliance.Device

/-! ## The first reply -/

/-- The events with which a script answers a connection to an address, response
after response. -/
def Script.replies (s : Script) (address : String) : List ScheduledEvent :=
  (s.responses.filter fun a =>
    a.kind = .connect ∧ (a.address = none ∨ a.address = some address)).flatMap (·.events)

/-- The reply with the shortest delay, and of several the first in the script. -/
def Script.firstReply? (s : Script) (address : String) : Option ScheduledEvent :=
  (s.replies address).argmin (·.delay)

theorem Platform.answersTo_connect {p : Platform} {s : Script}
    (h : p.responses = s.responses) (address : String) (secure : Bool) (now : Nat) :
    p.answersTo (.connect address secure) now =
      (s.replies address).map fun e => ⟨now + e.delay, e.event⟩ := by
  have hfilter : p.responses.filter (·.answers (.connect address secure)) =
      s.responses.filter fun a =>
        a.kind = .connect ∧ (a.address = none ∨ a.address = some address) := by
    rw [h]
    apply List.filter_congr
    intro a _
    rw [Bool.eq_iff_iff, Response.answers_iff, decide_eq_true_iff]
    rfl
  rw [answersTo, hfilter, Script.replies]

theorem head?_enqueue (d : Due) (queue : List Due) :
    (enqueue d queue).head? = match queue.head? with
      | none => some d
      | some e => if d.time < e.time then some d else some e := by
  cases queue with
  | nil => rfl
  | cons e rest =>
      rw [enqueue]
      split <;> simp [*]

/-- In front of the queue stands the event with the shortest delay. -/
theorem head?_enqueueAll (es : List ScheduledEvent) (now : Nat) :
    (enqueueAll (es.map fun e => ⟨now + e.delay, e.event⟩) []).head? =
      (es.argmin (·.delay)).map fun e => ⟨now + e.delay, e.event⟩ := by
  induction es using List.reverseRecOn with
  | nil => rfl
  | append_singleton es e ih =>
      simp only [enqueueAll, List.map_append, List.map_cons, List.map_nil, List.foldl_append,
        List.foldl_cons, List.foldl_nil] at ih ⊢
      rw [head?_enqueue, ih, List.argmin_concat]
      cases es.argmin (·.delay) with
      | none => rfl
      | some first =>
          simp only [Option.map_some, Nat.add_lt_add_iff_left]
          split <;> rfl

end Compliance.Device

namespace Compliance.Check

open Compliance.Device (Event ScheduledEvent Script Session)
open Compliance.Report (Log Metric)

/-! ## Addresses -/

/-- The same character, or an ASCII letter in its two cases. -/
def SameLetter (c d : Char) : Prop :=
  c = d ∨ 65 ≤ c.toNat ∧ c.toNat ≤ 90 ∧ d.toNat = c.toNat + 32 ∨
    65 ≤ d.toNat ∧ d.toNat ≤ 90 ∧ c.toNat = d.toNat + 32

theorem toNat_toLower (c : Char) :
    c.toLower.toNat = if 65 ≤ c.toNat ∧ c.toNat ≤ 90 then c.toNat + 32 else c.toNat := by
  have hrange : (c.val ≥ 'A'.val ∧ c.val ≤ 'Z'.val) ↔ 65 ≤ c.toNat ∧ c.toNat ≤ 90 := by
    rw [ge_iff_le, UInt32.le_iff_toNat_le, UInt32.le_iff_toNat_le]
    rfl
  unfold Char.toLower
  by_cases h : c.val ≥ 'A'.val ∧ c.val ≤ 'Z'.val
  · rw [dif_pos h, if_pos (hrange.1 h)]
    have hadd : (c.val + ('a'.val - 'A'.val)).toNat = (c.val.toNat + 32) % 2 ^ 32 :=
      UInt32.toNat_add ..
    have hle := (hrange.1 h).2
    change (c.val + ('a'.val - 'A'.val)).toNat = c.val.toNat + 32
    change c.val.toNat ≤ 90 at hle
    omega
  · rw [dif_neg h, if_neg (mt hrange.2 h)]

theorem toLower_eq_iff (c d : Char) : c.toLower = d.toLower ↔ SameLetter c d := by
  rw [SameLetter, ← Char.toNat_inj, ← Char.toNat_inj, toNat_toLower, toNat_toLower]
  split <;> split <;> omega

theorem sameAddress_iff (a b : String) :
    Link.sameAddress a b = true ↔ List.Forall₂ SameLetter a.toList b.toList := by
  have hletters : SameLetter = fun c d => c.toLower = d.toLower := by
    funext c d
    exact propext (toLower_eq_iff c d).symm
  have hlower (s : String) : s.toLower = s.map Char.toLower := rfl
  rw [Link.sameAddress, beq_iff_eq, String.ext_iff, hlower, hlower, String.toList_map,
    String.toList_map, hletters, ← List.forall₂_eq_eq_eq, List.forall₂_map_left_iff,
    List.forall₂_map_right_iff]

/-- The wait for one event goes on with that event. -/
theorem Program.run_awaitOne_ok {α : Type} (next : Sighting → Program α) {c : Context}
    {b : Bench} {s s' : Session} {e : Event} {now : Nat} (hs : b.session = some s)
    (h : awaitEvent c.deadline b.token s b.clock = (.ok e, s', now)) :
    (awaitOne next).run c b = (next ⟨e, c.deadline.elapsed now⟩).run c
      { b with session := some s', clock := now } := by
  have hgather : Check.gather (fun _ => true) c.deadline b.token [] s b.clock =
      (.ok [⟨e, c.deadline.elapsed now⟩], s', now) := gather_of_ok h
  rw [awaitOne, run_gather_ok hs hgather]
  rfl

/-! ## The link that comes up -/

/-- The peer is the one that was asked for, and the link is as it has to be. -/
structure Link.Meets (l : Link) (address : String) (encrypted : Bool) (mtu : Nat) : Prop where
  address : List.Forall₂ SameLetter address.toList l.address.toList
  encrypted : l.requireEncryption = true → encrypted = true
  mtu : ∀ least ∈ l.minMtu, least ≤ mtu

/-- The event is a link that meets the parameters; encryption is required as
`secure` says if nothing else is said. -/
def LinkParams.Accepts (p : LinkParams) (e : Event) : Prop :=
  ∃ address encrypted mtu, e = .connected address encrypted mtu ∧
    List.Forall₂ SameLetter address.toList p.address.toList ∧
    (p.requireEncryption.getD p.secure = true → encrypted = true) ∧
    ∀ least ∈ p.minMtu, least ≤ mtu

namespace Link

variable {l : Link}

theorem accepts_iff {p : LinkParams} (h : ofParams p = .ok l) (address : String)
    (encrypted : Bool) (mtu : Nat) :
    p.Accepts (.connected address encrypted mtu) ↔ l.Meets address encrypted mtu := by
  unfold ofParams at h
  split at h
  · cases h
  · cases h
    constructor
    · rintro ⟨_, _, _, heq, haddress, hencrypted, hmtu⟩
      cases heq
      exact ⟨haddress, hencrypted, hmtu⟩
    · exact fun h => ⟨_, _, _, rfl, h.address, h.encrypted, h.mtu⟩

theorem request_of_ofParams {p : LinkParams} (h : ofParams p = .ok l) :
    l.address = p.address ∧ l.secure = p.secure := by
  unfold ofParams at h
  split at h
  · cases h
  · cases h
    exact ⟨rfl, rfl⟩

theorem fault?_spec (l : Link) (address : String) (encrypted : Bool) (mtu : Nat) :
    (l.fault? address encrypted mtu = none ∧ l.Meets address encrypted mtu) ∨
      ∃ f, l.fault? address encrypted mtu = some f ∧ f.cause = .protocolMismatch ∧
        ¬ l.Meets address encrypted mtu := by
  unfold fault?
  cases hsame : sameAddress address l.address with
  | false =>
      refine Or.inr ⟨_, rfl, rfl, fun h => ?_⟩
      rw [(sameAddress_iff _ _).2 h.address] at hsame
      cases hsame
  | true =>
      cases hencrypted : l.requireEncryption && !encrypted with
      | true =>
          refine Or.inr ⟨_, rfl, rfl, fun h => ?_⟩
          rw [Bool.and_eq_true, Bool.not_eq_true'] at hencrypted
          rw [h.encrypted hencrypted.1] at hencrypted
          cases hencrypted.2
      | false =>
          have hsecret (hrequired : l.requireEncryption = true) : encrypted = true := by
            simpa [hrequired] using hencrypted
          have haddress := (sameAddress_iff _ _).1 hsame
          cases hleast : l.minMtu with
          | none => exact Or.inl ⟨rfl, haddress, hsecret, by simp [hleast]⟩
          | some least =>
              by_cases hlt : mtu < least
              · refine Or.inr ⟨_, if_pos hlt, rfl, fun h => ?_⟩
                exact absurd (h.mtu least hleast) (Nat.not_le.2 hlt)
              · refine Or.inl ⟨if_neg hlt, haddress, hsecret, ?_⟩
                simpa [hleast] using hlt

/-! ## The check -/

/-- The code that is left of a link check when it has waited for its first reply,
and the time it has waited. -/
def rest (l : Link) (timeouts : Timeouts) (first? : Option ScheduledEvent) :
    Program Outcome × Nat :=
  match first?.filter (·.delay ≤ timeouts.test) with
  | some e => (l.conclude ⟨e.event, e.delay⟩, e.delay)
  | none => (.fail (noCallback ⟨timeouts, 0⟩ ⟨channel l.secure, [], true⟩), timeouts.test)

/-- The session when the request of the check has been sent. -/
def asked (l : Link) (b : Bench) : Session where
  capability := channel l.secure
  queue := Device.enqueueAll
    (b.platform.answersTo (.connect l.address l.secure) b.clock) []
  isOpen := true

/-- The bench when the check has waited for a while. -/
def waited (l : Link) (b : Bench) (s : Session) (ms : Nat) : Bench :=
  { b with
    clock := b.clock + ms
    platform := { b.platform with
      requests := b.platform.requests ++ [.connect l.address l.secure] }
    session := some s }

section Run

variable {c : Context} {b : Bench} (hs : b.session = some ⟨channel l.secure, [], true⟩)

include hs

theorem run_sent : l.program.run c b =
    (Program.awaitOne l.conclude).run c (l.waited b (l.asked b) 0) := by
  have hsession : (c.view b).hasSession = true := by simp [Context.view, hs]
  have hsend := Session.send_of_open (s := ⟨channel l.secure, [], true⟩) rfl
    (.connect l.address l.secure) b.clock b.platform
  simp only [program, Program.run, hsession, if_true, hs, hsend]
  rfl

variable (htoken : b.token.isCancelled = false) (hstart : c.deadline.start = b.clock)
  {first? : Option ScheduledEvent}
  (hfirst : (l.asked b).queue.head? =
    first?.map fun e => ⟨b.clock + e.delay, e.event⟩)

include htoken hstart hfirst

theorem run_silent (hlate : ∀ e ∈ first?, c.deadline.timeouts.test < e.delay) :
    l.program.run c b = ⟨.stopped (noCallback c.deadline (l.asked b)), c.log,
      l.waited b (l.asked b) c.deadline.timeouts.test⟩ := by
  have htime : c.deadline.time = b.clock + c.deadline.timeouts.test := by
    rw [Deadline.time, hstart]
  have hqueue : ∀ due ∈ (l.asked b).queue.head?, c.deadline.time < due.time := by
    rw [hfirst]
    intro due hdue
    obtain ⟨e, he, rfl⟩ := Option.map_eq_some_iff.1 hdue
    rw [htime]
    exact Nat.add_lt_add_left (hlate e he) b.clock
  have hawait : awaitEvent c.deadline b.token (l.asked b) b.clock = _ :=
    awaitEvent_of_silent htoken (by omega) hqueue
  have hgather : gather (fun _ => true) c.deadline b.token [] (l.asked b) b.clock = _ :=
    gather_of_error hawait
  rw [run_sent hs, Program.awaitOne, Program.run]
  simp only [waited, Nat.add_zero, hgather, htime]

theorem run_answered (hpos : 0 < c.deadline.timeouts.test) {e : ScheduledEvent}
    (he : first? = some e) (hle : e.delay ≤ c.deadline.timeouts.test) :
    ∃ s, l.program.run c b = (l.conclude ⟨e.event, e.delay⟩).run c (l.waited b s e.delay) := by
  have htime : c.deadline.time = b.clock + c.deadline.timeouts.test := by
    rw [Deadline.time, hstart]
  rw [he] at hfirst
  obtain ⟨queue, hqueue⟩ := List.head?_eq_some_iff.1 hfirst
  have hawait : awaitEvent c.deadline b.token (l.asked b) b.clock = _ :=
    awaitEvent_of_due htoken (by omega) hqueue (by simp only; omega)
  have hclock : max b.clock (b.clock + e.delay) = b.clock + e.delay := by omega
  have helapsed : c.deadline.elapsed (b.clock + e.delay) = e.delay := by
    rw [Deadline.elapsed, hstart]
    omega
  have hrun := Program.run_awaitOne_ok l.conclude (b := l.waited b (l.asked b) 0) rfl hawait
  simp only [hclock, helapsed] at hrun
  exact ⟨_, (run_sent hs).trans hrun⟩

end Run

/-- The request is sent, and the check waits for the first reply, but no longer
than it may. -/
theorem run_program (l : Link) {c : Context} {b : Bench}
    (hs : b.session = some ⟨channel l.secure, [], true⟩) (htoken : b.token.isCancelled = false)
    (hstart : c.deadline.start = b.clock) (hpos : 0 < c.deadline.timeouts.test)
    {script : Script} (hresponses : b.platform.responses = script.responses) :
    let rest := l.rest c.deadline.timeouts (script.firstReply? l.address)
    ∃ s, l.program.run c b = rest.1.run c (l.waited b s rest.2) := by
  have hfirst : (l.asked b).queue.head? = (script.firstReply? l.address).map
      fun e => ⟨b.clock + e.delay, e.event⟩ := by
    rw [asked, Device.Platform.answersTo_connect hresponses]
    exact Device.head?_enqueueAll _ _
  unfold rest
  cases hintime : (script.firstReply? l.address).filter
    (·.delay ≤ c.deadline.timeouts.test) with
  | none =>
      rw [Option.filter_eq_none_iff] at hintime
      exact ⟨_, run_silent hs htoken hstart hfirst (by simpa using hintime)⟩
  | some e =>
      obtain ⟨he, hle⟩ := Option.filter_eq_some_iff.1 hintime
      exact run_answered hs htoken hstart hfirst hpos he (by simpa using hle)

end Link

/-! ## What is left of a check -/

/-- How a check ended, and the headline and the details that are in its log. -/
structure Tally where
  ending : Ending Failure Outcome
  headline : Option Metric
  details : List (String × Metric)

/-- On an empty log the program comes to the tally, on whatever bench, and leaves
the bench alone. -/
def Program.Yields (p : Program Outcome) (t : Tally) : Prop :=
  ∀ (c : Context) (b : Bench), c.log.headline = none → c.log.details = [] →
    p.run c b = ⟨t.ending, { c.log with headline := t.headline, details := t.details }, b⟩

theorem Program.yields_fail (f : Failure) :
    (fail f : Program Outcome).Yields ⟨.stopped f, none, []⟩ := by
  intro c b hheadline hdetails
  simp [run, ← hheadline, ← hdetails]

namespace Link

variable {l : Link}

/-- What a link check comes to, and how long it waits for it. -/
inductive Comes (l : Link) (limit : Nat) (first? : Option ScheduledEvent) :
    Tally → Nat → Prop where
  | silent (h : ∀ e ∈ first?, limit < e.delay) {f : Failure} (hf : f.cause = .timedOut) :
      Comes l limit first? ⟨.stopped f, none, []⟩ limit
  | accepted {e : ScheduledEvent} (he : first? = some e) (hle : e.delay ≤ limit)
      {address : String} {encrypted : Bool} {mtu : Nat}
      (hevent : e.event = .connected address encrypted mtu)
      (hmeets : l.Meets address encrypted mtu) (o : Outcome) :
      Comes l limit first? ⟨.returned o, some (latencyMetric e.delay),
        [("negotiated_mtu", mtuMetric mtu)]⟩ e.delay
  | violating {e : ScheduledEvent} (he : first? = some e) (hle : e.delay ≤ limit)
      {address : String} {encrypted : Bool} {mtu : Nat}
      (hevent : e.event = .connected address encrypted mtu)
      (hnot : ¬ l.Meets address encrypted mtu) {f : Failure}
      (hf : f.cause = .protocolMismatch) : Comes l limit first? ⟨.stopped f, none, []⟩ e.delay
  | unexpected {e : ScheduledEvent} (he : first? = some e) (hle : e.delay ≤ limit)
      (hevent : ∀ address encrypted mtu, e.event ≠ .connected address encrypted mtu)
      {f : Failure} (hf : f.cause = .unexpectedResponse) :
      Comes l limit first? ⟨.stopped f, none, []⟩ e.delay

theorem yields_accepted {delay mtu : Nat} (hdelay : delay < 2 ^ 64) (hmtu : mtu < 2 ^ 64)
    (o : Outcome) : (Program.headline (latencyMetric delay)
      (.record (mtuMetric mtu) (.pure o))).Yields
        ⟨.returned o, some (latencyMetric delay), [("negotiated_mtu", mtuMetric mtu)]⟩ := by
  intro c b hheadline hdetails
  have hlatency : (latencyMetric delay).value.isFinite = true :=
    Report.MetricValue.isFinite_single_asMillis hdelay
  have hsize : (mtuMetric mtu).value.isFinite = true :=
    Report.MetricValue.isFinite_single_ofNat hmtu
  have hset := Log.setHeadline_of_none hlatency hheadline
  rw [Program.run_headline_ok hset]
  have hadd := Log.add_of_lt { c.log with headline := some (latencyMetric delay) } hsize
    (by simp [hdetails])
  rw [Program.run_record_ok hadd, hdetails]
  rfl

theorem exists_tally (l : Link) {timeouts : Timeouts} {first? : Option ScheduledEvent}
    (hlimit : timeouts.test < 2 ^ 64)
    (hmtu : ∀ e ∈ first?, ∀ address encrypted mtu,
      e.event = .connected address encrypted mtu → mtu < 2 ^ 64) :
    let rest := l.rest timeouts first?
    ∃ t, rest.1.Yields t ∧ l.Comes timeouts.test first? t rest.2 := by
  unfold rest
  cases hintime : first?.filter (·.delay ≤ timeouts.test) with
  | none =>
      rw [Option.filter_eq_none_iff] at hintime
      exact ⟨_, Program.yields_fail _, .silent (by simpa using hintime) rfl⟩
  | some e =>
      obtain ⟨he, hle⟩ := Option.filter_eq_some_iff.1 hintime
      rw [decide_eq_true_iff] at hle
      simp only [conclude]
      split
      · rename_i address encrypted mtu hevent
        rcases l.fault?_spec address encrypted mtu with ⟨hnone, hmeets⟩ | ⟨f, hsome, hf, hnot⟩
        · rw [hnone]
          have hyields := yields_accepted (hle.trans_lt hlimit) (hmtu e he _ _ _ hevent)
          exact ⟨_, hyields _, .accepted he hle hevent hmeets _⟩
        · rw [hsome]
          exact ⟨_, Program.yields_fail f, .violating he hle hevent hnot hf⟩
      · rename_i hevent
        exact ⟨_, Program.yields_fail _, .unexpected he hle (by simp [hevent]) rfl⟩
      · rename_i hevent
        exact ⟨_, Program.yields_fail _, .unexpected he hle (by simp [hevent]) rfl⟩
      · rename_i hevent _ _
        exact ⟨_, Program.yields_fail _, .unexpected he hle hevent rfl⟩

end Link

end Compliance.Check
