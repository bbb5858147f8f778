import Mathlib.Data.List.Dedup
import Mathlib.Data.List.Find
import Mathlib.Tactic.Common
import Compliance.Proofs.Check.Orderly

/-!
# The events of a search

A search goes on while the events are harmless and do not show all that it wants.
The first event with which it does not go on completes the search or spoils it.
-/

namespace Compliance.Check

open Compliance.Device (Event)

/-! ## What is shown -/

/-- The instance that an event shows to a query, with its record. -/
def ServiceQuery.shown? (q : ServiceQuery) : Event → Option (String × List (String × String))
  | .serviceFound family service name txt =>
      if q.accepts (.serviceFound family service name txt) then some (name, txt) else none
  | _ => none

/-- A record has all the entries that are wanted. -/
def Carries (wanted given : List (String × String)) : Prop :=
  ∀ entry ∈ wanted, Ordered.find? entry.1 given = some entry.2

namespace Discovery

variable (d : Discovery)

/-- The instances shown, once for each event that shows them. -/
def shown (seen : List Sighting) : List String :=
  seen.filterMap fun s => (d.query.shown? s.event).map (·.1)

/-- Instances are named, and all of them were shown. -/
def Complete (seen : List Sighting) : Prop :=
  d.instances ≠ [] ∧ d.instances ⊆ d.shown seen

/-- The event is of a family that the query covers, and if it answers the query,
then as is expected. -/
structure Harmless (s : Sighting) : Prop where
  covered : ∃ family service name txt, s.event = .serviceFound family service name txt ∧
    d.query.covers family = true
  expected : ∀ name txt, d.query.shown? s.event = some (name, txt) →
    d.expect = .found ∧ Carries d.txt txt

/-- Events with which a search goes on. -/
structure Goes (seen : List Sighting) : Prop where
  harmless : ∀ s ∈ seen, d.Harmless s
  incomplete : ∀ front, front <+: seen → ¬ d.Complete front

/-- The event that completes a search after those with which it goes on. -/
inductive Succeeds (before : List Sighting) (last : Sighting) : Prop where
  | absent (h : d.Goes before) (hlast : last.event = .discoveryComplete) (hd : d.expect = .none)
      (hshown : d.shown before = []) : Succeeds before last
  | present (h : d.Goes before) (hlast : last.event = .discoveryComplete)
      (hd : d.expect = .found) (hshown : d.shown before ≠ [])
      (hall : d.instances ⊆ d.shown before) : Succeeds before last
  | completed (h : d.Goes before) {name : String} {txt : List (String × String)}
      (hlast : d.query.shown? last.event = some (name, txt)) (hd : d.expect = .found)
      (hcarries : Carries d.txt txt) (hall : d.Complete (before ++ [last])) :
      Succeeds before last

/-- The event that spoils a search after those with which it goes on, and the
cause it gives. -/
inductive Offends (before : List Sighting) (last : Sighting) : FailureCause → Prop where
  | unwanted (h : d.Goes before) {name : String} {txt : List (String × String)}
      (hlast : d.query.shown? last.event = some (name, txt)) (hd : d.expect = .none) :
      Offends before last .protocolMismatch
  | differing (h : d.Goes before) {name : String} {txt : List (String × String)}
      (hlast : d.query.shown? last.event = some (name, txt)) (hd : d.expect = .found)
      (hcarries : ¬ Carries d.txt txt) : Offends before last .protocolMismatch
  | foreign (h : d.Goes before) {family : Device.ServiceFamily} {service name : String}
      {txt : List (String × String)}
      (hlast : last.event = .serviceFound family service name txt)
      (hcovers : d.query.covers family = false) : Offends before last .protocolMismatch
  | unanswered (h : d.Goes before) (hlast : last.event = .discoveryComplete)
      (hd : d.expect = .found) (hshown : d.shown before = []) :
      Offends before last .protocolMismatch
  | short (h : d.Goes before) (hlast : last.event = .discoveryComplete)
      (hd : d.expect = .found) (hall : ¬ d.instances ⊆ d.shown before) :
      Offends before last .protocolMismatch
  | error (h : d.Goes before) {code : Int} {message : String}
      (hlast : last.event = .error code message) : Offends before last .unexpectedResponse
  | other (h : d.Goes before)
      (hlast : (∃ address encrypted mtu, last.event = .connected address encrypted mtu) ∨
        ∃ reason, last.event = .disconnected reason) :
      Offends before last .unexpectedResponse

/-! ### The bearing of one event -/

variable {d}

theorem txtFault?_eq_none_iff (name : String) {given : List (String × String)} :
    d.txtFault? name given = none ↔ Carries d.txt given := by
  unfold txtFault? Carries
  rw [List.findSome?_eq_none_iff]
  apply forall₂_congr
  intro entry _
  obtain ⟨key, expected⟩ := entry
  cases hfind : Ordered.find? key given with
  | none => simp [hfind]
  | some actual => simp [hfind]

theorem covers_of_shown? {q : ServiceQuery} {e : Event} {name : String}
    {txt : List (String × String)} (h : q.shown? e = some (name, txt)) :
    ∃ family service, e = .serviceFound family service name txt ∧ q.accepts e = true ∧
      q.covers family = true := by
  unfold ServiceQuery.shown? at h
  split at h
  · rename_i family service name' txt'
    split at h
    · rename_i haccepts
      cases h
      refine ⟨family, service, rfl, haccepts, ?_⟩
      simp only [ServiceQuery.accepts, Bool.and_eq_true] at haccepts
      exact haccepts.1
    · cases h
  · cases h

variable {seen before : List Sighting} {last : Sighting}

theorem bearing_of_shown {e : Event} {name : String} {txt : List (String × String)}
    (h : d.query.shown? e = some (name, txt)) (hd : d.expect = .found)
    (hcarries : Carries d.txt txt) : d.bearing e = .accepted name := by
  obtain ⟨family, service, rfl, haccepts, -⟩ := covers_of_shown? h
  simp [bearing, haccepts, hd, (txtFault?_eq_none_iff name).2 hcarries]

theorem harmless_of_shown {s : Sighting} {name : String} {txt : List (String × String)}
    (h : d.query.shown? s.event = some (name, txt)) (hd : d.expect = .found)
    (hcarries : Carries d.txt txt) : d.Harmless s := by
  obtain ⟨family, service, he, -, hcovers⟩ := covers_of_shown? h
  refine ⟨⟨family, service, name, txt, he, hcovers⟩, fun name' txt' h' => ?_⟩
  cases h.symm.trans h'
  exact ⟨hd, hcarries⟩

theorem bearing_of_harmless {s : Sighting} (h : d.Harmless s) :
    d.bearing s.event = match d.query.shown? s.event with
      | some (name, _) => .accepted name
      | none => .ignored := by
  cases hshown : d.query.shown? s.event with
  | some found =>
      obtain ⟨hd, hcarries⟩ := h.expected found.1 found.2 hshown
      exact bearing_of_shown hshown hd hcarries
  | none =>
      obtain ⟨family, service, name, txt, he, hcovers⟩ := h.covered
      rw [he] at hshown ⊢
      have haccepts : d.query.accepts (.serviceFound family service name txt) = false := by
        simpa [ServiceQuery.shown?] using hshown
      simp [bearing, haccepts, hcovers]

theorem accepted?_of_harmless {s : Sighting} (h : d.Harmless s) :
    d.accepted? s = (d.query.shown? s.event).map (·.1) := by
  rw [accepted?, bearing_of_harmless h]
  cases d.query.shown? s.event <;> rfl

/-- The search takes each event for what it shows. -/
def Plain (d : Discovery) (seen : List Sighting) : Prop :=
  ∀ s ∈ seen, d.accepted? s = (d.query.shown? s.event).map (·.1)

theorem plain_of_harmless (h : ∀ s ∈ seen, d.Harmless s) : d.Plain seen :=
  fun s hs => accepted?_of_harmless (h s hs)

theorem mem_reported_iff (h : d.Plain seen) {name : String} :
    name ∈ d.reported seen ↔ name ∈ d.shown seen := by
  induction seen using List.reverseRecOn with
  | nil => rfl
  | append_singleton seen s ih =>
      have hseen := ih fun x hx => h x (List.mem_append_left _ hx)
      have hs := h s (by simp)
      have hshown : name ∈ d.shown (seen ++ [s]) ↔
          name ∈ d.shown seen ∨ d.accepted? s = some name := by
        simp [shown, hs]
      rw [hshown, reported_concat, ← hseen]
      cases d.accepted? s with
      | none => simp
      | some shown =>
          simp only [Option.some.injEq, List.contains_iff_mem]
          split
          · rename_i hmem
            exact ⟨Or.inl, fun hor => hor.elim id fun heq => heq ▸ hmem⟩
          · simp [eq_comm]

theorem instances_subset_iff (h : d.Plain seen) :
    d.instances ⊆ d.shown seen ↔ ∀ i ∈ d.instances, i ∈ d.reported seen := by
  simp only [mem_reported_iff h]
  rfl

theorem isFulfilled_iff (h : d.Plain seen) :
    d.isFulfilled (d.reported seen) = true ↔ d.Complete seen := by
  simp [isFulfilled, Complete, instances_subset_iff h]

theorem Goes.front {front : List Sighting} (h : d.Goes seen) (hfront : front <+: seen) :
    d.Goes front :=
  ⟨fun s hs => h.harmless s (hfront.subset hs), fun front' hfront' =>
    h.incomplete front' (hfront'.trans hfront)⟩

theorem harmless_concat (h : ∀ s ∈ before, d.Harmless s) (hlast : d.Harmless last) :
    ∀ s ∈ before ++ [last], d.Harmless s := by
  intro s hs
  rcases List.mem_append.1 hs with hs | hs
  · exact h s hs
  · rw [List.mem_singleton.1 hs]
    exact hlast

end Discovery

end Compliance.Check
