import Mathlib.Order.Lattice
import Mathlib.Tactic.Common
import Compliance.Device.Session

/-!
# One session

What the operations of a session keep, and when they fail.  The queue of a
session is always in the order in which its events are due.
-/

namespace Compliance.Device

namespace Platform

variable {p p' : Platform} {c : Capability} {s : Session}

theorem isHeld_iff : p.isHeld c = true ↔ c ∈ p.held.members := by
  simp [isHeld]

theorem acquire_eq_unavailable :
    p.acquire c = .error (.unavailable c) ↔ c ∉ p.available.members := by
  unfold acquire
  split
  · rename_i h
    simpa [CapabilitySet.contains] using h
  · rename_i h
    have hc : c ∈ p.available.members := by simpa using h
    split <;> simp [hc]

theorem acquire_eq_busy :
    p.acquire c = .error (.busy c) ↔ c ∈ p.available.members ∧ c ∈ p.held.members := by
  unfold acquire
  split
  · rename_i h
    have hc : c ∉ p.available.members := by simpa [CapabilitySet.contains] using h
    simp [hc]
  · rename_i h
    have hc : c ∈ p.available.members := by simpa using h
    split
    · rename_i hbusy
      simpa [hc, isHeld] using hbusy
    · rename_i hfree
      simpa [hc, isHeld] using hfree

/-- Only an available capability that is free is acquired, and the session on
it is open. -/
theorem acquire_eq_ok :
    p.acquire c = .ok (s, p') ↔
      c ∈ p.available.members ∧ c ∉ p.held.members ∧ s = ⟨c, [], true⟩ ∧
        p' = { p with held := p.held.insert c } := by
  unfold acquire
  split
  · rename_i h
    have hc : c ∉ p.available.members := by simpa [CapabilitySet.contains] using h
    simp [hc]
  · rename_i h
    have hc : c ∈ p.available.members := by simpa using h
    split
    · rename_i hbusy
      have hheld : c ∈ p.held.members := by simpa [isHeld] using hbusy
      simp [hheld]
    · rename_i hfree
      have hheld : c ∉ p.held.members := by simpa [isHeld] using hfree
      simp [hc, hheld, eq_comm]

end Platform

namespace Session

/-- What the platform holds for a session. -/
def holding (s : Session) : List Capability :=
  if s.isOpen then [s.capability] else []

theorem holding_congr {s s' : Session} (hc : s'.capability = s.capability)
    (ho : s'.isOpen = s.isOpen) : s'.holding = s.holding := by
  simp [holding, hc, ho]

@[simp] theorem mem_holding {s : Session} {c : Capability} :
    c ∈ s.holding ↔ s.isOpen = true ∧ s.capability = c := by
  unfold holding
  split
  · rename_i h
    simp [h, eq_comm]
  · rename_i h
    simp [h]

theorem send_of_closed {s : Session} (h : s.isOpen = false) (r : Request) (now : Nat)
    (p : Platform) : s.send r now p = .error .closed := by
  simp [send, h]

theorem send_of_open {s : Session} (h : s.isOpen = true) (r : Request) (now : Nat)
    (p : Platform) :
    s.send r now p = .ok ({ s with queue := enqueueAll (p.answersTo r now) s.queue },
      { p with requests := p.requests ++ [r] }) := by
  simp [send, h]

theorem send_eq_ok {s s' : Session} {r : Request} {now : Nat} {p p' : Platform} :
    s.send r now p = .ok (s', p') ↔
      s.isOpen = true ∧ s' = { s with queue := enqueueAll (p.answersTo r now) s.queue } ∧
        p' = { p with requests := p.requests ++ [r] } := by
  by_cases h : s.isOpen = true
  · simp [send_of_open h, h, eq_comm]
  · rw [Bool.not_eq_true] at h
    simp [send_of_closed h, h]

theorem close_of_closed {s : Session} (h : s.isOpen = false) (p : Platform) :
    s.close p = (s, p) := by
  simp [close, h]

@[simp] theorem available_close (s : Session) (p : Platform) :
    (s.close p).2.available = p.available := by
  unfold close
  split <;> rfl

@[simp] theorem holding_close (s : Session) (p : Platform) : (s.close p).1.holding = [] := by
  unfold close
  split
  · simp [holding]
  · rename_i h
    simp [holding, h]

theorem next_keeps (s : Session) (wait now : Nat) :
    (s.next wait now).2.1.capability = s.capability ∧
      (s.next wait now).2.1.isOpen = s.isOpen := by
  unfold next
  split
  · split <;> exact ⟨rfl, rfl⟩
  · exact ⟨rfl, rfl⟩

theorem clock_le_next (s : Session) (wait now : Nat) : now ≤ (s.next wait now).2.2 := by
  unfold next
  split
  · split
    · exact Nat.le_max_left _ _
    · exact Nat.le_add_right _ _
  · exact Nat.le_add_right _ _

theorem next_eq_none {s s' : Session} {wait now now' : Nat}
    (h : s.next wait now = (none, s', now')) :
    s' = s ∧ now' = now + wait ∧ ∀ due ∈ s.queue.head?, now + wait < due.time := by
  unfold next at h
  split at h
  · rename_i due rest hq
    split at h
    · simp at h
    · rename_i hlate
      simp only [Prod.mk.injEq, true_and] at h
      exact ⟨h.1.symm, h.2.symm, by simpa [hq] using hlate⟩
  · rename_i hq
    simp only [Prod.mk.injEq, true_and] at h
    exact ⟨h.1.symm, h.2.symm, by simp [hq]⟩

theorem next_eq_some {s s' : Session} {wait now now' : Nat} {e : Event}
    (h : s.next wait now = (some e, s', now')) :
    ∃ due rest, s.queue = due :: rest ∧ due.time ≤ now + wait ∧ e = due.event ∧
      s' = { s with queue := rest } ∧ now' = max now due.time := by
  unfold next at h
  split at h
  · rename_i due rest hq
    split at h
    · rename_i hdue
      simp only [Prod.mk.injEq, Option.some.injEq] at h
      exact ⟨due, rest, hq, hdue, h.1.symm, h.2.1.symm, h.2.2.symm⟩
    · simp at h
  · simp at h

/-- The queue is in the order in which its events are due. -/
def InOrder (s : Session) : Prop :=
  s.queue.Pairwise fun d e => d.time ≤ e.time

end Session

/-! ## Queues stay in order -/

theorem mem_enqueue {d e : Due} {queue : List Due} :
    e ∈ enqueue d queue ↔ e = d ∨ e ∈ queue := by
  induction queue with
  | nil => simp [enqueue]
  | cons first rest ih =>
      unfold enqueue
      split
      · simp
      · simp [ih, or_left_comm]

theorem mem_enqueueAll {ds queue : List Due} {e : Due} :
    e ∈ enqueueAll ds queue ↔ e ∈ ds ∨ e ∈ queue := by
  unfold enqueueAll
  induction ds generalizing queue with
  | nil => simp
  | cons d rest ih =>
      rw [List.foldl_cons, ih, mem_enqueue, List.mem_cons, or_left_comm, or_assoc]

theorem pairwise_enqueue {d : Due} {queue : List Due}
    (h : queue.Pairwise fun d e => d.time ≤ e.time) :
    (enqueue d queue).Pairwise fun d e => d.time ≤ e.time := by
  induction queue with
  | nil => simp [enqueue]
  | cons first rest ih =>
      rw [List.pairwise_cons] at h
      unfold enqueue
      split
      · rename_i hlt
        refine List.pairwise_cons.2 ⟨?_, List.pairwise_cons.2 h⟩
        intro e he
        rcases List.mem_cons.1 he with rfl | he
        · exact Nat.le_of_lt hlt
        · exact (Nat.le_of_lt hlt).trans (h.1 e he)
      · rename_i hnlt
        refine List.pairwise_cons.2 ⟨?_, ih h.2⟩
        intro e he
        rcases mem_enqueue.1 he with rfl | he
        · exact Nat.not_lt.1 hnlt
        · exact h.1 e he

theorem pairwise_enqueueAll {queue : List Due}
    (h : queue.Pairwise fun d e => d.time ≤ e.time) (ds : List Due) :
    (enqueueAll ds queue).Pairwise fun d e => d.time ≤ e.time := by
  induction ds generalizing queue with
  | nil => exact h
  | cons d rest ih => exact ih (pairwise_enqueue h)

namespace Session.InOrder

variable {s : Session}

theorem acquire {p p' : Platform} {c : Capability} (h : p.acquire c = .ok (s, p')) :
    s.InOrder := by
  obtain ⟨-, -, rfl, -⟩ := Platform.acquire_eq_ok.1 h
  exact List.Pairwise.nil

theorem send (hs : s.InOrder) {s' : Session} {r : Request} {now : Nat}
    {p p' : Platform} (h : s.send r now p = .ok (s', p')) : s'.InOrder := by
  obtain ⟨-, rfl, -⟩ := send_eq_ok.1 h
  exact pairwise_enqueueAll hs _

theorem of_cons (hs : s.InOrder) {due : Due} {rest : List Due} (hq : s.queue = due :: rest) :
    InOrder { s with queue := rest } := by
  unfold InOrder at hs
  rw [hq] at hs
  exact List.Pairwise.of_cons hs

theorem le_of_cons (hs : s.InOrder) {due : Due} {rest : List Due}
    (hq : s.queue = due :: rest) : ∀ e ∈ rest, due.time ≤ e.time := by
  unfold InOrder at hs
  rw [hq] at hs
  exact (List.pairwise_cons.1 hs).1

theorem next (hs : s.InOrder) (wait now : Nat) : (s.next wait now).2.1.InOrder := by
  unfold Session.next
  split
  · rename_i due rest hq
    split
    · exact hs.of_cons hq
    · exact hs
  · exact hs

theorem close (hs : s.InOrder) (p : Platform) : (s.close p).1.InOrder := by
  unfold Session.close
  split
  · exact List.Pairwise.nil
  · exact hs

end Session.InOrder

end Compliance.Device
