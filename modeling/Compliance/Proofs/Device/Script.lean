import Mathlib.Algebra.Group.Nat.Defs
import Compliance.Proofs.Device.Session
import Compliance.Proofs.Json.Records

/-!
# What a device file can say

Every event that a device ever reports stands in its script, and a script that
was read from a file has no numbers but those that fit their fields.
-/

namespace Compliance.Json

variable {α : Type}

theorem Fields.exists_of_required {f : Fields} {name : String} {decode : Json → Option α}
    {a : α} (h : f.required name decode = some a) : ∃ v, decode v = some a := by
  obtain ⟨v, -, hv⟩ := Option.bind_eq_some_iff.1 h
  exact ⟨v, hv⟩

theorem Fields.exists_of_defaulted {f : Fields} {name : String} {default : α}
    {decode : Json → Option α} {a : α} (h : f.defaulted name default decode = some a) :
    a = default ∨ ∃ v, decode v = some a := by
  unfold defaulted at h
  split at h
  · exact Or.inl (Option.some.inj h).symm
  · exact Or.inr ⟨_, h⟩

theorem exists_of_mem_mapM {decode : Json → Option α} {items : List Json} {as : List α}
    (h : items.mapM decode = some as) {a : α} (ha : a ∈ as) : ∃ v, decode v = some a := by
  have hall := mapM_eq_some_iff.1 h
  obtain ⟨i, hi, rfl⟩ := List.mem_iff_getElem.1 ha
  exact ⟨_, hall.get (hall.length_eq ▸ hi) hi⟩

theorem exists_of_mem_listOf? {decode : Json → Option α} {v : Json} {as : List α}
    (h : listOf? decode v = some as) {a : α} (ha : a ∈ as) : ∃ w, decode w = some a := by
  unfold listOf? at h
  split at h
  · exact exists_of_mem_mapM h ha
  · cases h

theorem Fields.exists_of_mem_defaulted {f : Fields} {name : String}
    {decode : Json → Option α} {as : List α}
    (h : f.defaulted name [] (listOf? decode) = some as) {a : α} (ha : a ∈ as) :
    ∃ v, decode v = some a := by
  rcases exists_of_defaulted h with rfl | ⟨v, hv⟩
  · simp at ha
  · exact exists_of_mem_listOf? hv ha

theorem unsigned?_lt {bits n : Nat} {v : Json} (h : unsigned? bits v = some n) :
    n < 2 ^ bits := by
  unfold unsigned? at h
  split at h
  · split at h
    · rename_i i hi
      cases h
      exact (Int.toNat_lt hi.1).2 hi.2
    · cases h
  · cases h

end Compliance.Json

namespace Compliance.Device

/-- The events of a script, those of its first response first. -/
def Script.events (s : Script) : List Event :=
  s.responses.flatMap fun r => r.events.map (·.event)

/-- What answers a request stands in the script. -/
theorem Platform.event_mem_of_answersTo {p : Platform} {s : Script}
    (hp : p.responses = s.responses) {r : Request} {now : Nat} {due : Due}
    (h : due ∈ p.answersTo r now) : due.event ∈ s.events := by
  obtain ⟨scheduled, hscheduled, rfl⟩ := List.mem_map.1 h
  obtain ⟨response, hresponse, hmem⟩ := List.mem_flatMap.1 hscheduled
  have hscript := (List.mem_filter.1 hresponse).1
  rw [hp] at hscript
  exact List.mem_flatMap.2 ⟨response, hscript, List.mem_map_of_mem hmem⟩

theorem Event.mtu_lt_of_ofJson? {v : Json} {address : String} {encrypted : Bool}
    {mtu : Nat} (h : ofJson? v = some (.connected address encrypted mtu)) :
    mtu < 2 ^ 16 := by
  unfold ofJson? at h
  simp only [bind, Option.bind_eq_some_iff, Prod.exists] at h
  obtain ⟨tag, rest, -, h⟩ := h
  split at h
  case h_2 => split at h <;> cases h
  case h_3 =>
    simp only [Option.bind_eq_some_iff] at h
    obtain ⟨f, -, address', -, encrypted', -, mtu', hmtu, h⟩ := h
    cases h
    obtain ⟨w, hw⟩ := Json.Fields.exists_of_required hmtu
    exact Json.unsigned?_lt hw
  case h_6 => cases h
  -- The other kinds of events have no such field.
  all_goals simp [Option.bind_eq_some_iff] at h

theorem ScheduledEvent.exists_of_ofJson? {form : Json.Form} {v : Json} {e : ScheduledEvent}
    (h : ofJson? form v = some e) : ∃ w, Event.ofJson? w = some e.event := by
  unfold ofJson? at h
  simp only [bind, Option.bind_eq_some_iff] at h
  obtain ⟨f, -, delay, -, event, hevent, h⟩ := h
  cases h
  exact Json.Fields.exists_of_required hevent

theorem Response.exists_of_ofJson? {form : Json.Form} {v : Json} {r : Response}
    (h : ofJson? form v = some r) {e : ScheduledEvent} (he : e ∈ r.events) :
    ∃ w, ScheduledEvent.ofJson? form w = some e := by
  unfold ofJson? at h
  simp only [bind, Option.bind_eq_some_iff] at h
  obtain ⟨f, -, kind, -, family, -, address, -, events, hevents, h⟩ := h
  cases h
  exact Json.Fields.exists_of_mem_defaulted hevents he

/-- Every event of a script that was read is one that was read. -/
theorem Script.exists_of_ofJson? {form : Json.Form} {v : Json} {s : Script}
    (h : ofJson? form v = some s) {e : Event} (he : e ∈ s.events) :
    ∃ w, Event.ofJson? w = some e := by
  unfold ofJson? at h
  simp only [bind, Option.bind_eq_some_iff] at h
  obtain ⟨f, -, profile, -, responses, hresponses, h⟩ := h
  cases h
  obtain ⟨r, hr, he⟩ := List.mem_flatMap.1 he
  obtain ⟨scheduled, hscheduled, rfl⟩ := List.mem_map.1 he
  obtain ⟨w, hw⟩ := Json.Fields.exists_of_mem_defaulted hresponses hr
  obtain ⟨x, hx⟩ := Response.exists_of_ofJson? hw hscheduled
  exact ScheduledEvent.exists_of_ofJson? hx

/-- The numbers of a script fit a machine word. -/
structure Script.Fits (s : Script) : Prop where
  few : s.events.length < 2 ^ 64
  mtu : ∀ address encrypted mtu, .connected address encrypted mtu ∈ s.events → mtu < 2 ^ 64

theorem Script.fits_of_ofJson? {form : Json.Form} {v : Json} {s : Script}
    (h : ofJson? form v = some s) (hfew : s.events.length < 2 ^ 64) : s.Fits := by
  refine ⟨hfew, fun address encrypted mtu he => ?_⟩
  obtain ⟨w, hw⟩ := exists_of_ofJson? h he
  have hmtu := Event.mtu_lt_of_ofJson? hw
  omega

end Compliance.Device
