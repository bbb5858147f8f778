import Mathlib.Data.List.Enum
import Mathlib.Data.List.Perm.Subperm
import Mathlib.Tactic.Common
import Compliance.Proofs.Device.Session

/-!
# The deliveries of a session

Requests overlap, and what answers them waits in one queue that is read while it
grows.  Every event is booked when it is scheduled: the numbers of the bookings
tell events apart that look alike, and they decide between events that are due
at the same time.  What is delivered and what waits are together what was
booked, and what waits is in the order of the bookings.
-/

namespace Compliance.Device

/-! ## What answers a request -/

/-- A response is for requests of one kind, and for one family or one address
only if it names one. -/
def Response.IsFor (a : Response) (r : Request) : Prop :=
  a.kind = r.kind ∧ match r with
    | .discoverServices family _ => a.family = none ∨ a.family = some family
    | .connect address _ => a.address = none ∨ a.address = some address

instance (a : Response) (r : Request) : Decidable (a.IsFor r) := by
  cases r <;> exact inferInstanceAs (Decidable (_ ∧ (_ ∨ _)))

theorem Response.answers_iff {a : Response} {r : Request} :
    a.answers r = true ↔ a.IsFor r := by
  have hall {α : Type} [DecidableEq α] (named? : Option α) (x : α) :
      named?.all (· == x) = true ↔ named? = none ∨ named? = some x := by
    cases named? <;> simp
  cases r <;> simp only [answers, IsFor, Bool.and_eq_true, beq_iff_eq, hall]

/-- The events with which a script answers a request that is sent at a time, one
response after the other. -/
def scheduleOf (script : List Response) (r : Request) (now : Nat) : List Due :=
  script.flatMap fun a =>
    if a.IsFor r then a.events.map fun e => ⟨now + e.delay, e.event⟩ else []

theorem Platform.answersTo_eq (p : Platform) (r : Request) (now : Nat) :
    p.answersTo r now = scheduleOf p.responses r now := by
  unfold answersTo scheduleOf
  induction p.responses with
  | nil => rfl
  | cons a rest ih =>
      by_cases ha : a.IsFor r
      · rw [List.filter_cons_of_pos (by exact Response.answers_iff.2 ha), List.flatMap_cons,
          List.map_append, ih, List.flatMap_cons, if_pos ha]
      · rw [List.filter_cons_of_neg (by exact mt Response.answers_iff.1 ha), ih,
          List.flatMap_cons, if_neg ha, List.nil_append]

/-! ## Bookings -/

/-- An event that was scheduled, with its number in the order of scheduling. -/
abbrev Booking := Due × Nat

/-- The order in which bookings are served: by their time, and at the same time
by their number. -/
def Booking.Before (a b : Booking) : Prop :=
  a.1.time < b.1.time ∨ a.1.time = b.1.time ∧ a.2 < b.2

theorem Booking.Before.le {a b : Booking} (h : a.Before b) : a.1.time ≤ b.1.time := by
  rcases h with hlt | ⟨heq, -⟩
  · exact hlt.le
  · exact heq.le

/-- An event that is enqueued with the highest number takes its place in the
order. -/
theorem exists_enqueue {waiting : List Booking} (h : waiting.Pairwise Booking.Before)
    (d : Due) {n : Nat} (hn : ∀ b ∈ waiting, b.2 < n) :
    ∃ waiting' : List Booking, waiting'.map (·.1) = enqueue d (waiting.map (·.1)) ∧
      waiting'.Perm ((d, n) :: waiting) ∧ waiting'.Pairwise Booking.Before := by
  induction waiting with
  | nil => exact ⟨[(d, n)], rfl, .refl _, List.pairwise_singleton _ _⟩
  | cons b rest ih =>
      obtain ⟨hfirst, hrest⟩ := List.pairwise_cons.1 h
      rw [List.map_cons, enqueue]
      split
      · rename_i hlt
        refine ⟨(d, n) :: b :: rest, rfl, .refl _, List.pairwise_cons.2 ⟨?_, h⟩⟩
        intro x hx
        rcases List.mem_cons.1 hx with rfl | hx
        · exact Or.inl hlt
        · exact Or.inl (hlt.trans_le (hfirst x hx).le)
      · rename_i hnlt
        obtain ⟨waiting', hmap, hperm, hordered⟩ :=
          ih hrest fun x hx => hn x (List.mem_cons_of_mem b hx)
        refine ⟨b :: waiting', by rw [List.map_cons, hmap], ?_, List.pairwise_cons.2 ⟨?_, hordered⟩⟩
        · exact (hperm.cons b).trans (.swap (d, n) b rest)
        · intro x hx
          rcases List.mem_cons.1 (hperm.mem_iff.1 hx) with rfl | hx
          · rcases (Nat.not_lt.1 hnlt).lt_or_eq with hlt | heq
            · exact Or.inl hlt
            · exact Or.inr ⟨heq, hn b List.mem_cons_self⟩
          · exact hfirst x hx

theorem exists_enqueueAll {waiting : List Booking} (h : waiting.Pairwise Booking.Before)
    (ds : List Due) {n : Nat} (hn : ∀ b ∈ waiting, b.2 < n) :
    ∃ waiting' : List Booking, waiting'.map (·.1) = enqueueAll ds (waiting.map (·.1)) ∧
      waiting'.Perm (waiting ++ ds.zipIdx n) ∧ waiting'.Pairwise Booking.Before := by
  induction ds generalizing waiting n with
  | nil => exact ⟨waiting, rfl, by simp, h⟩
  | cons d rest ih =>
      obtain ⟨one, hmap, hperm, hordered⟩ := exists_enqueue h d hn
      have hone : ∀ b ∈ one, b.2 < n + 1 := by
        intro b hb
        rcases List.mem_cons.1 (hperm.mem_iff.1 hb) with rfl | hb
        · exact Nat.lt_succ_self n
        · exact (hn b hb).trans (Nat.lt_succ_self n)
      obtain ⟨waiting', hmap', hperm', hordered'⟩ := ih hordered hone
      refine ⟨waiting', ?_, ?_, hordered'⟩
      · rw [hmap', hmap]
        rfl
      · calc
          waiting'.Perm (one ++ rest.zipIdx (n + 1)) := hperm'
          List.Perm _ ((d, n) :: waiting ++ rest.zipIdx (n + 1)) := hperm.append_right _
          List.Perm _ (waiting ++ (d :: rest).zipIdx n) := by
            rw [List.zipIdx_cons]
            exact List.perm_middle.symm

/-! ## A session in use -/

/-- What is done with a session, or with nothing at all: time passes. -/
inductive Use where
  | send (r : Request)
  | next (wait : Nat)
  | pass (ms : Nat)
  | close

/-- An event, and when it was delivered. -/
structure Delivered where
  time : Nat
  event : Event

/-- A session in use, with everything that was scheduled for it, in the order of
scheduling, and everything that it has delivered. -/
structure Service where
  session : Session
  platform : Platform
  clock : Nat
  scheduled : List Due
  delivered : List Delivered

namespace Service

/-- A session that has just been acquired. -/
def start (c : Capability) (p : Platform) (now : Nat) : Service :=
  ⟨⟨c, [], true⟩, p, now, [], []⟩

/-- A request that is refused schedules nothing. -/
def perform (u : Service) : Use → Service
  | .send r =>
      match u.session.send r u.clock u.platform with
      | .error _ => u
      | .ok (s, p) =>
          { u with
            session := s
            platform := p
            scheduled := u.scheduled ++ scheduleOf u.platform.responses r u.clock }
  | .next wait =>
      match u.session.next wait u.clock with
      | (none, s, now) => { u with session := s, clock := now }
      | (some e, s, now) =>
          { u with session := s, clock := now, delivered := u.delivered ++ [⟨now, e⟩] }
  | .pass ms => { u with clock := u.clock + ms }
  | .close =>
      { u with
        session := (u.session.close u.platform).1
        platform := (u.session.close u.platform).2 }

def run (u : Service) (uses : List Use) : Service :=
  uses.foldl perform u

variable {u : Service}

theorem perform_send_of_open (h : u.session.isOpen = true) (r : Request) :
    u.perform (.send r) = { u with
      session := { u.session with
        queue := enqueueAll (scheduleOf u.platform.responses r u.clock) u.session.queue }
      platform := { u.platform with requests := u.platform.requests ++ [r] }
      scheduled := u.scheduled ++ scheduleOf u.platform.responses r u.clock } := by
  simp only [perform, Session.send_of_open h, Platform.answersTo_eq]

theorem perform_send_of_closed (h : u.session.isOpen = false) (r : Request) :
    u.perform (.send r) = u := by
  simp only [perform, Session.send_of_closed h]

theorem perform_next_of_due {wait : Nat} {due : Due} {rest : List Due}
    (h : u.session.queue = due :: rest) (hdue : due.time ≤ u.clock + wait) :
    u.perform (.next wait) = { u with
      session := { u.session with queue := rest }
      clock := max u.clock due.time
      delivered := u.delivered ++ [⟨max u.clock due.time, due.event⟩] } := by
  simp only [perform, Session.next, h, if_pos hdue]

theorem perform_next_of_silent {wait : Nat}
    (h : ∀ due ∈ u.session.queue.head?, u.clock + wait < due.time) :
    u.perform (.next wait) = { u with clock := u.clock + wait } := by
  cases hqueue : u.session.queue with
  | nil => simp only [perform, Session.next, hqueue]
  | cons due rest =>
      have hlate : ¬ due.time ≤ u.clock + wait := Nat.not_le.2 (h due (by simp [hqueue]))
      simp only [perform, Session.next, hqueue, if_neg hlate]

/-- The books of a session: the bookings it has served, as they were served, and
those that wait, as they will be. -/
structure Booked (u : Service) (served waiting : List Booking) : Prop where
  conserved : u.session.isOpen = true → (served ++ waiting).Perm u.scheduled.zipIdx
  once : List.Subperm (served ++ waiting) u.scheduled.zipIdx
  queue : u.session.queue = waiting.map (·.1)
  ordered : waiting.Pairwise Booking.Before
  delivered : List.Forall₂ (fun b d => d.event = b.1.event ∧ b.1.time ≤ d.time)
    served u.delivered
  closed : u.session.isOpen = false → waiting = []

namespace Booked

variable {served waiting : List Booking}

theorem start (c : Capability) (p : Platform) (now : Nat) :
    (Service.start c p now).Booked [] [] where
  conserved := fun _ => .nil
  once := .refl _
  queue := rfl
  ordered := List.Pairwise.nil
  delivered := .nil
  closed := fun _ => rfl

theorem send (h : u.Booked served waiting) (hopen : u.session.isOpen = true) (r : Request) :
    ∃ waiting', (u.perform (.send r)).Booked served waiting' := by
  have hbooks := h.conserved hopen
  have hbelow : ∀ b ∈ waiting, b.2 < u.scheduled.length := by
    intro b hb
    exact List.snd_lt_of_mem_zipIdx (hbooks.mem_iff.1 (List.mem_append_right served hb))
  obtain ⟨waiting', hmap, hperm, hordered⟩ :=
    exists_enqueueAll h.ordered (scheduleOf u.platform.responses r u.clock) hbelow
  have hall : (served ++ waiting').Perm
      (u.scheduled ++ scheduleOf u.platform.responses r u.clock).zipIdx := by
    rw [List.zipIdx_append, Nat.zero_add]
    apply (hperm.append_left served).trans
    rw [← List.append_assoc]
    exact hbooks.append_right _
  rw [perform_send_of_open hopen]
  refine ⟨waiting', fun _ => hall, hall.subperm, ?_, hordered, h.delivered, ?_⟩
  · rw [hmap, ← h.queue]
  · exact fun hclosed => absurd (hopen.symm.trans hclosed) Bool.noConfusion

/-- The first booking that waits is served. -/
theorem serve {first : Booking} (h : u.Booked served (first :: waiting)) {wait : Nat}
    (hdue : first.1.time ≤ u.clock + wait) :
    (u.perform (.next wait)).Booked (served ++ [first]) waiting := by
  have hmoved : served ++ [first] ++ waiting = served ++ first :: waiting := by simp
  rw [perform_next_of_due h.queue hdue]
  constructor
  case conserved => exact fun hopen => hmoved ▸ h.conserved hopen
  case once => exact hmoved ▸ h.once
  case queue => rfl
  case ordered => exact h.ordered.of_cons
  case delivered => exact List.rel_append h.delivered (.cons ⟨rfl, Nat.le_max_right _ _⟩ .nil)
  case closed => exact fun hclosed => absurd (h.closed hclosed) (List.cons_ne_nil _ _)

theorem passed (h : u.Booked served waiting) (clock : Nat) :
    { u with clock := clock }.Booked served waiting :=
  ⟨h.conserved, h.once, h.queue, h.ordered, h.delivered, h.closed⟩

theorem next (h : u.Booked served waiting) (wait : Nat) :
    ∃ served' waiting', (u.perform (.next wait)).Booked served' waiting' := by
  by_cases hdue : ∃ first rest, waiting = first :: rest ∧ first.1.time ≤ u.clock + wait
  · obtain ⟨first, rest, rfl, hdue⟩ := hdue
    exact ⟨_, _, h.serve hdue⟩
  · rw [perform_next_of_silent]
    · exact ⟨served, waiting, h.passed _⟩
    · rw [h.queue]
      cases waiting with
      | nil => simp
      | cons first rest => simpa using hdue

theorem close (h : u.Booked served waiting) :
    (u.perform .close).session.isOpen = false ∧ (u.perform .close).Booked served [] := by
  have hend : (u.session.close u.platform).1.isOpen = false ∧
      (u.session.close u.platform).1.queue = [] := by
    unfold Session.close
    split
    · exact ⟨rfl, rfl⟩
    · rename_i hclosed
      rw [Bool.not_eq_true] at hclosed
      exact ⟨hclosed, by rw [h.queue, h.closed hclosed, List.map_nil]⟩
  refine ⟨hend.1, ?_, ?_, hend.2, List.Pairwise.nil, h.delivered, fun _ => rfl⟩
  · exact fun hopen => absurd (hend.1.symm.trans hopen) Bool.noConfusion
  · rw [List.append_nil]
    exact (List.sublist_append_left served waiting).subperm.trans h.once

theorem perform (h : u.Booked served waiting) (use : Use) :
    ∃ served' waiting', (u.perform use).Booked served' waiting' := by
  cases use with
  | send r =>
      cases hopen : u.session.isOpen with
      | true => exact ⟨served, h.send hopen r⟩
      | false =>
          rw [perform_send_of_closed hopen]
          exact ⟨served, waiting, h⟩
  | next wait => exact h.next wait
  | pass ms => exact ⟨served, waiting, h.passed (u.clock + ms)⟩
  | close => exact ⟨served, [], h.close.2⟩

theorem run (h : u.Booked served waiting) (uses : List Use) :
    ∃ served' waiting', (u.run uses).Booked served' waiting' := by
  induction uses generalizing u served waiting with
  | nil => exact ⟨served, waiting, h⟩
  | cons use rest ih =>
      obtain ⟨served', waiting', hone⟩ := h.perform use
      exact ih hone

end Booked

/-! ## Open and closed -/

theorem responses_perform (u : Service) (use : Use) :
    (u.perform use).platform.responses = u.platform.responses := by
  cases use with
  | send r =>
      cases hopen : u.session.isOpen with
      | true => rw [perform_send_of_open hopen]
      | false => rw [perform_send_of_closed hopen]
  | next wait =>
      simp only [perform]
      split <;> rfl
  | pass ms => rfl
  | close =>
      simp only [perform, Session.close]
      split <;> rfl

theorem responses_run (u : Service) (uses : List Use) :
    (u.run uses).platform.responses = u.platform.responses := by
  induction uses generalizing u with
  | nil => rfl
  | cons use rest ih => exact (ih (u.perform use)).trans (u.responses_perform use)

theorem isOpen_perform (u : Service) (use : Use) :
    (u.perform use).session.isOpen = true ↔ u.session.isOpen = true ∧ use ≠ .close := by
  cases use with
  | send r =>
      cases hopen : u.session.isOpen with
      | true => simp [perform_send_of_open hopen, hopen]
      | false => simp [perform_send_of_closed hopen, hopen]
  | next wait =>
      have hkeeps := (u.session.next_keeps wait u.clock).2
      have hsame : (u.perform (.next wait)).session.isOpen = u.session.isOpen := by
        simp only [perform]
        split <;> simpa [*] using hkeeps
      simp [hsame]
  | pass ms => simp [perform]
  | close =>
      simp only [perform, Session.close]
      split <;> simp_all

theorem isOpen_run (u : Service) (uses : List Use) :
    (u.run uses).session.isOpen = true ↔ u.session.isOpen = true ∧ .close ∉ uses := by
  induction uses generalizing u with
  | nil => simp [run]
  | cons use rest ih =>
      rw [List.mem_cons, not_or]
      refine (ih (u.perform use)).trans ?_
      rw [isOpen_perform, and_assoc, ne_comm]

/-- A closed session delivers nothing any more. -/
theorem Booked.delivered_of_closed {served waiting : List Booking}
    (h : u.Booked served waiting) (hclosed : u.session.isOpen = false) (uses : List Use) :
    (u.run uses).delivered = u.delivered := by
  induction uses generalizing u served waiting with
  | nil => rfl
  | cons use rest ih =>
      have hempty : u.session.queue = [] := by rw [h.queue, h.closed hclosed, List.map_nil]
      have hone : (u.perform use).delivered = u.delivered := by
        cases use with
        | send r => rw [perform_send_of_closed hclosed]
        | next wait => rw [perform_next_of_silent (by simp [hempty])]
        | pass ms | close => rfl
      have hstays : (u.perform use).session.isOpen = false := by
        rw [← Bool.not_eq_true, isOpen_perform, hclosed]
        simp
      obtain ⟨served', waiting', hnext⟩ := h.perform use
      exact (ih hnext hstays).trans hone

/-- Whatever is done with a session: everything scheduled by the responses that
are for its requests has been delivered or waits, once and in the order of the
bookings, until the session is closed; a wait delivers the first that waits just
when it is due by its end; and a closed session delivers nothing. -/
theorem deliveries_in_order (c : Capability) (p : Platform) (now : Nat) (uses : List Use) :
    let u := (start c p now).run uses
    u.platform.responses = p.responses ∧
      (u.session.isOpen = true ↔ .close ∉ uses) ∧
      (∀ later, ((u.perform .close).run later).delivered = u.delivered) ∧
      ∃ served waiting, u.Booked served waiting ∧
        ∀ wait, ((u.session.next wait u.clock).1.isSome = true ↔
            ∃ due ∈ u.session.queue.head?, due.time ≤ u.clock + wait) ∧
          ∀ e, (u.session.next wait u.clock).1 = some e →
            ∃ first rest, waiting = first :: rest ∧ e = first.1.event ∧
              first.1.time ≤ (u.perform (.next wait)).clock ∧
              (∀ due ∈ u.session.queue, first.1.time ≤ due.time) ∧
              (u.perform (.next wait)).Booked (served ++ [first]) rest := by
  intro u
  obtain ⟨served, waiting, h⟩ := (Booked.start c p now).run uses
  change u.Booked served waiting at h
  refine ⟨responses_run _ uses, ?_, ?_, served, waiting, h, ?_⟩
  · rw [isOpen_run]
    simp [start]
  · intro later
    obtain ⟨hclosed, hbooked⟩ := h.close
    exact hbooked.delivered_of_closed hclosed later
  · intro wait
    cases waiting with
    | nil => simp [Session.next, h.queue]
    | cons first rest =>
        have hqueue : u.session.queue = first.1 :: rest.map (·.1) := h.queue
        by_cases hdue : first.1.time ≤ u.clock + wait
        · have hnext : (u.session.next wait u.clock).1 = some first.1.event := by
            simp only [Session.next, hqueue, if_pos hdue]
          refine ⟨by simp [hnext, hqueue, hdue], ?_⟩
          intro e he
          rw [hnext] at he
          cases he
          refine ⟨first, rest, rfl, rfl, ?_, ?_, h.serve hdue⟩
          · rw [perform_next_of_due hqueue hdue]
            exact Nat.le_max_right _ _
          · intro due hmem
            rw [h.queue] at hmem
            obtain ⟨b, hb, rfl⟩ := List.mem_map.1 hmem
            rcases List.mem_cons.1 hb with rfl | hb
            · exact le_refl _
            · exact ((List.pairwise_cons.1 h.ordered).1 b hb).le
        · simp [Session.next, hqueue, hdue]

end Service

end Compliance.Device
