import Mathlib.Tactic.Common
import Compliance.Suite.Entry

/-!
# Checks of entries

A check is made from an entry when its parameters have the shape of the kind and
make sense.  It requires what the kind needs and what the entry adds, and it is
prepared by acquiring something that the kind needs.
-/

namespace Compliance.Suite

open Compliance.Check (Discovery DiscoveryParams Link LinkParams TestCase)
open Compliance.Device (Capability)
open Compliance.Report (TestId)

namespace Entry

variable {e : Entry} {c : TestCase}

section Params

variable {α β : Type} {decode : Json → Option α} {make : α → Except String β} {f : β → TestCase}

theorem map_withParams_eq_ok :
    (e.withParams decode make).map f = .ok c ↔
      ∃ p b, decode e.givenParams = some p ∧ make p = .ok b ∧ c = f b := by
  unfold withParams
  cases decode e.givenParams with
  | none => simp [Except.map]
  | some p => cases hmake : make p <;> simp [Except.map, hmake, eq_comm]

theorem map_withParams_ne (id : TestId) :
    (e.withParams decode make).map f ≠ .error (.duplicateId id) := by
  unfold withParams
  cases decode e.givenParams with
  | none => simp [Except.map]
  | some p => cases hmake : make p <;> simp [Except.map, hmake]

end Params

/-- A check of the registry searches for services or connects to a peer, as the
parameters of its entry say. -/
theorem toCase_cases (h : e.toCase = .ok c) :
    (∃ p d, e.kind = .serviceDiscovery ∧ DiscoveryParams.ofJson? e.givenParams = some p ∧
      Discovery.ofParams p = .ok d ∧ c = d.toCase e.id e.requires) ∨
    ∃ p l, e.kind = .connect ∧ LinkParams.ofJson? e.givenParams = some p ∧
      Link.ofParams p = .ok l ∧ c = l.toCase e.id e.requires := by
  unfold toCase at h
  split at h
  · rename_i hkind
    obtain ⟨p, d, hp, hd, hc⟩ := map_withParams_eq_ok.1 h
    exact Or.inl ⟨p, d, hkind, hp, hd, hc⟩
  · rename_i hkind
    obtain ⟨p, l, hp, hl, hc⟩ := map_withParams_eq_ok.1 h
    exact Or.inr ⟨p, l, hkind, hp, hl, hc⟩

/-- A single entry is refused for its parameters and for nothing else. -/
theorem toCase_ne_duplicateId (e : Entry) (id : TestId) :
    e.toCase ≠ .error (.duplicateId id) := by
  unfold toCase
  split
  · exact map_withParams_ne id
  · exact map_withParams_ne id

/-- What the kind of an entry needs, with its parameters. -/
def implied (e : Entry) : List Capability :=
  match e.kind with
  | .serviceDiscovery => [.peerToPeer, .serviceDiscovery]
  | .connect =>
      if (LinkParams.ofJson? e.givenParams).any (·.secure) then [.lowEnergy, .lowEnergySecure]
      else [.lowEnergy]

/-- A check under the id of its entry, with exactly the requirements of the kind and
of the entry, that takes its session on something that the kind needs. -/
structure Provides (e : Entry) (c : TestCase) : Prop where
  id : c.id = e.id
  requires : ∀ x, x ∈ c.requires.members ↔ x ∈ e.implied ∨ x ∈ e.requires.members
  opens : ∃ x ∈ e.implied, c.prepare = .acquire x .ready

theorem secure_of_ofParams {p : LinkParams} {l : Link} (h : Link.ofParams p = .ok l) :
    l.secure = p.secure := by
  unfold Link.ofParams at h
  split at h
  · cases h
  · cases h
    rfl

theorem provides_of_toCase (h : e.toCase = .ok c) : e.Provides c := by
  rcases toCase_cases h with ⟨p, d, hkind, -, -, rfl⟩ | ⟨p, l, hkind, hp, hl, rfl⟩
  · have himplied : e.implied = [.peerToPeer, .serviceDiscovery] := by
      rw [implied, hkind]
    refine ⟨rfl, fun x => ?_, .serviceDiscovery, by simp [himplied], rfl⟩
    simp [himplied, Discovery.toCase, Discovery.requirements, or_comm]
  · have himplied : e.implied =
        if l.secure then [.lowEnergy, .lowEnergySecure] else [.lowEnergy] := by
      rw [implied, hkind, hp, secure_of_ofParams hl]
      rfl
    refine ⟨rfl, fun x => ?_, Link.channel l.secure, ?_, rfl⟩
    · rw [himplied]
      simp [Link.toCase, Link.requirements, or_comm]
    · rw [himplied]
      cases l.secure <;> simp [Link.channel]

end Entry

end Compliance.Suite
