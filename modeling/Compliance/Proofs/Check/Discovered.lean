import Mathlib.Tactic.Common
import Compliance.Proofs.Check.Hearing
import Compliance.Proofs.Check.Searching

/-!
# What a search comes to

The verdict of a search is that of the first event with which it does not go on,
or, when there is none, the failure of the wait behind the last.  A signal that
comes in between leaves the events before it to the search.
-/

namespace Compliance.Check

open Compliance.Device (Session)
open Compliance.Report (Log)

namespace Discovery

variable {d : Discovery} {seen before : List Sighting} {last : Sighting}

/-! ## What is concluded -/

/-- An event that spoils the search spoils it by itself, or ends it too early. -/
theorem Offends.bearing {cause : FailureCause} (h : d.Offends before last cause) :
    (∃ f, d.bearing last.event = .offending f ∧ f.cause = cause) ∨
      last.event = .discoveryComplete ∧ d.Goes before ∧ d.expect = .found ∧
        cause = .protocolMismatch ∧ (d.shown before = [] ∨ ¬ d.instances ⊆ d.shown before) := by
  cases h with
  | unwanted _ hlast hd =>
      obtain ⟨family, service, he, haccepts, -⟩ := covers_of_shown? hlast
      rw [he] at haccepts ⊢
      exact Or.inl (by simp [Discovery.bearing, haccepts, hd, mismatch])
  | @differing _ name txt hlast hd hcarries =>
      obtain ⟨family, service, he, haccepts, -⟩ := covers_of_shown? hlast
      rw [he] at haccepts ⊢
      obtain ⟨f, hf⟩ := Option.ne_none_iff_exists'.1
        (mt (txtFault?_eq_none_iff name).1 hcarries)
      exact Or.inl ⟨f, by simp [Discovery.bearing, haccepts, hd, hf], d.cause_of_txtFault? hf⟩
  | foreign _ hlast hcovers =>
      rw [hlast]
      exact Or.inl (by simp [Discovery.bearing, ServiceQuery.accepts, hcovers, mismatch])
  | unanswered hgoes hlast hd hshown => exact Or.inr ⟨hlast, hgoes, hd, rfl, Or.inl hshown⟩
  | short hgoes hlast hd hall => exact Or.inr ⟨hlast, hgoes, hd, rfl, Or.inr hall⟩
  | error _ hlast =>
      rw [hlast]
      exact Or.inl ⟨_, rfl, rfl⟩
  | other _ hlast =>
      rcases hlast with ⟨address, encrypted, mtu, hlast⟩ | ⟨reason, hlast⟩
      · rw [hlast]
        exact Or.inl ⟨_, rfl, rfl⟩
      · rw [hlast]
        exact Or.inl ⟨_, rfl, rfl⟩

/-- The first sighting of an instance. -/
def firstShown? (d : Discovery) (seen : List Sighting) : Option Sighting :=
  seen.find? fun s => (d.query.shown? s.event).isSome

section Conclusion

variable (hlast : ∀ f, d.bearing last.event ≠ .offending f)
  (hplain : d.Plain (before ++ [last]))

include hlast hplain

variable (hd : d.expect = .found)

include hd

variable {first : Sighting} (hfirst : d.firstShown? (before ++ [last]) = some first)

include hfirst

end Conclusion

/-- What a search that succeeds adds to an empty log. -/
def Records (d : Discovery) (seen : List Sighting) (start log : Log) : Prop :=
  match d.expect with
  | .none => log = { start with details := [("services_found", countMetric 0)] }
  | .found => ∃ first, d.firstShown? seen = some first ∧
      log = { start with details := [("discovery_latency_ms", latencyMetric first.elapsed),
        ("services_found", countMetric (d.shown seen).dedup.length)] }

theorem Succeeds.isSettled (h : d.Succeeds before last) :
    d.isSettled (before ++ [last]) = true := by
  simp only [Discovery.isSettled, List.getLast?_concat]
  cases h with
  | absent _ hlast | present _ hlast => simp [hlast, Discovery.bearing]
  | @completed hgoes name txt hlast hd hcarries hall =>
      have hharmless := harmless_concat hgoes.harmless (harmless_of_shown hlast hd hcarries)
      rw [bearing_of_shown hlast hd hcarries]
      exact (isFulfilled_iff (plain_of_harmless hharmless)).2 hall

theorem Offends.isSettled {cause : FailureCause} (h : d.Offends before last cause) :
    d.isSettled (before ++ [last]) = true := by
  simp only [Discovery.isSettled, List.getLast?_concat]
  rcases h.bearing with ⟨f, hbearing, -⟩ | ⟨hlast, -⟩
  · rw [hbearing]
  · simp [hlast, Discovery.bearing]

section Recorded

variable {c : Context} (hlog : c.log.details = []) (b : Bench)
  (hfew : (before ++ [last]).length < 2 ^ 64)
  (helapsed : ∀ s ∈ before ++ [last], s.elapsed < 2 ^ 64)

include hlog hfew helapsed

end Recorded

/-! ## The verdict -/

/-- What a search with an empty log makes of the events it can hear over a
session, and of the failure behind them. -/
structure Verdict (d : Discovery) (start : Log) (s : Session) (es : List Sighting) (f : Failure)
    (out : Finish Outcome) : Prop where
  success : (∃ o, out.ending = .returned o) ↔
    ∃ before last rest, es = before ++ last :: rest ∧ d.Succeeds before last
  recorded : ∀ before last rest, es = before ++ last :: rest → d.Succeeds before last →
    d.Records (before ++ [last]) start out.log ∧
      out.bench.session = some { s with queue := s.queue.drop (before.length + 1) }
  spoiled : ∀ before last rest cause, es = before ++ last :: rest →
    d.Offends before last cause → ∃ failure, out.ending = .stopped failure ∧
      failure.cause = cause ∧ out.log = start ∧
      out.bench.session = some { s with queue := s.queue.drop (before.length + 1) }
  unended : d.Goes es → out.ending = .stopped f ∧ out.log = start ∧
    out.bench.session = some { s with queue := s.queue.drop es.length }
  decided : (∃ before last rest, es = before ++ last :: rest ∧
    (d.Succeeds before last ∨ ∃ cause, d.Offends before last cause)) ∨ d.Goes es

section Verdict

variable {c : Context} {s : Session} {es : List Sighting} {f : Failure} {out : Finish Outcome}

variable {b : Bench} (hs : b.session = some s)
  (hears : Hears c.deadline b.token s b.clock es f) (hlog : c.log.details = [])
  (hfew : es.length < 2 ^ 64) (hlimit : c.deadline.timeouts.test < 2 ^ 64)

include hs hears hlog hfew hlimit

end Verdict

/-- The program with some other code behind its request. -/
def asking (d : Discovery) (next : Program Outcome) : Program Outcome :=
  .look fun v =>
    if v.hasSession then .send d.query.request next
    else .fail ⟨.platform, "discovery session not open"⟩

/-- The program with a signal that comes behind so many events and some time. -/
def signalled (d : Discovery) (events ms : Nat) : Program Outcome :=
  match events with
  | 0 => d.asking (.sleep ms (.cancel (.gather d.isSettled d.conclude)))
  | events + 1 => d.asking (.cutShort (events + 1) ms d.isSettled d.conclude)

theorem Signalled.asking {next next' : Program Outcome} (h : next.Signalled next') :
    (d.asking next).Signalled (d.asking next') := by
  apply Program.Signalled.look
  intro v
  cases v.hasSession with
  | true => exact .send _ h
  | false => exact .same _

/-- The session when the request of a search has been sent. -/
def asked (d : Discovery) (b : Bench) (s : Session) : Session :=
  { s with queue := Device.enqueueAll (b.platform.answersTo d.query.request b.clock) s.queue }

end Discovery

end Compliance.Check
