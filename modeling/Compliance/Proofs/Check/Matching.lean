import Mathlib.Tactic.Common
import Compliance.Proofs.Check.Hearing

/-!
# Waiting for a match

A gathering shows one event after the other and stops at the first with which it has
enough.  Only so many events can be shown as are due by the deadline, and of those due
just then only one: after it the deadline has come.  How the waits are sliced makes no
difference.
-/

namespace Compliance.Check

open Compliance.Device (Due Event Session)

/-- The events that waits up to the deadline deliver when nothing stops them. -/
def deliverable (d : Deadline) (s : Session) (now : Nat) : List Due :=
  if d.time ≤ now then []
  else s.queue.filter (·.time < d.time) ++ (s.queue.find? (·.time = d.time)).toList

/-- An event as it is shown: when it is due, or at once if that is past. -/
def sighting (d : Deadline) (now : Nat) (due : Due) : Sighting :=
  ⟨due.event, d.elapsed (max now due.time)⟩

/-- None of the events is enough together with those before it. -/
def Rejects (enough : List Sighting → Bool) (seen events : List Sighting) : Prop :=
  ∀ front, front <+: events → front ≠ [] → enough (seen ++ front) = false

/-- A loop of waits, each of them a loop of slices, with the events it shows and what
comes of it. -/
inductive Gathers (enough : List Sighting → Bool) (d : Deadline) (t : CancelToken) :
    List Sighting → Session → Nat → List Sighting →
      Except Failure (List Sighting) × Session × Nat → Prop where
  | failed {seen : List Sighting} {s s' : Session} {now now' : Nat} {looks : List Nat}
      {f : Failure} (h : Waits d t s now looks (.error f, s', now')) :
      Gathers enough d t seen s now [] (.error f, s', now')
  | accepted {seen : List Sighting} {s s' : Session} {now now' : Nat} {looks : List Nat}
      {e : Event} (h : Waits d t s now looks (.ok e, s', now'))
      (hen : enough (seen ++ [⟨e, d.elapsed now'⟩]) = true) :
      Gathers enough d t seen s now [⟨e, d.elapsed now'⟩]
        (.ok (seen ++ [⟨e, d.elapsed now'⟩]), s', now')
  | dropped {seen shown : List Sighting} {s s' : Session} {now now' : Nat} {looks : List Nat}
      {e : Event} {out : Except Failure (List Sighting) × Session × Nat}
      (h : Waits d t s now looks (.ok e, s', now'))
      (hen : enough (seen ++ [⟨e, d.elapsed now'⟩]) = false)
      (hrest : Gathers enough d t (seen ++ [⟨e, d.elapsed now'⟩]) s' now' shown out) :
      Gathers enough d t seen s now (⟨e, d.elapsed now'⟩ :: shown) out

/-- The deliverable events are shown up to the first that is enough with those before
it, or all of them in vain.  What was shown has left the queue, and nothing else. -/
inductive FirstMatch (enough : List Sighting → Bool) (d : Deadline) (seen : List Sighting)
    (s : Session) (now : Nat) (shown : List Due)
    (out : Except Failure (List Sighting) × Session × Nat) : Prop where
  | found (before : List Due) {rest : List Due} {due : Due}
      (hall : deliverable d s now = before ++ due :: rest) (hshown : shown = before ++ [due])
      (hno : Rejects enough seen (before.map (sighting d now)))
      (hyes : enough (seen ++ shown.map (sighting d now)) = true)
      (hout : out = (.ok (seen ++ shown.map (sighting d now)),
        { s with queue := s.queue.drop shown.length }, max now due.time))
  | missed (hshown : shown = deliverable d s now)
      (hno : Rejects enough seen (shown.map (sighting d now)))
      (hout : out = (.error (noCallback d s),
        { s with queue := s.queue.drop shown.length }, max now d.time))

theorem rejects_nil (enough : List Sighting → Bool) (seen : List Sighting) :
    Rejects enough seen [] :=
  fun _ hfront hne => absurd (List.prefix_nil.1 hfront) hne

theorem Rejects.cons {enough : List Sighting → Bool} {seen events : List Sighting}
    {x : Sighting} (hx : enough (seen ++ [x]) = false)
    (hrest : Rejects enough (seen ++ [x]) events) : Rejects enough seen (x :: events) := by
  intro front hfront hne
  obtain ⟨y, front, rfl⟩ := List.exists_cons_of_ne_nil hne
  obtain ⟨rfl, hbehind⟩ := List.cons_prefix_cons.1 hfront
  by_cases hnil : front = []
  · rwa [hnil]
  · simpa using hrest front hbehind hnil

/-! ## What can be delivered -/

section Deliverable

variable {d : Deadline} {s : Session} {now : Nat}

variable (d now) in
/-- Either nothing is delivered any more, or the first of the queue is, and after it
what then can be. -/
theorem deliverable_cases (hs : s.InOrder) :
    (deliverable d s now = [] ∧
      (d.time ≤ now ∨ now < d.time ∧ ∀ due ∈ s.queue.head?, d.time < due.time)) ∨
    ∃ due rest, s.queue = due :: rest ∧ now < d.time ∧ due.time ≤ d.time ∧
      deliverable d s now =
        due :: deliverable d { s with queue := rest } (max now due.time) := by
  by_cases hexpired : d.time ≤ now
  · exact Or.inl ⟨if_pos hexpired, Or.inl hexpired⟩
  have hopen : now < d.time := Nat.lt_of_not_le hexpired
  cases hq : s.queue with
  | nil => exact Or.inl ⟨by simp [deliverable, hq], Or.inr ⟨hopen, by simp⟩⟩
  | cons due rest =>
      have hlater : ∀ e ∈ rest, due.time ≤ e.time := hs.le_of_cons hq
      rcases Nat.lt_trichotomy due.time d.time with hbefore | hjust | hafter
      · right
        refine ⟨due, rest, rfl, hopen, hbefore.le, ?_⟩
        have hstill : ¬ d.time ≤ max now due.time := by omega
        simp [deliverable, hq, hexpired, hstill, hbefore, hbefore.ne]
      · right
        refine ⟨due, rest, rfl, hopen, hjust.le, ?_⟩
        have hnone : rest.filter (·.time < d.time) = [] := by
          rw [List.filter_eq_nil_iff]
          intro e he
          have hle := hlater e he
          simp only [decide_eq_true_eq]
          omega
        simp [deliverable, hq, hexpired, hjust, hnone]
      · left
        have hbehind : ∀ e ∈ due :: rest, d.time < e.time := by
          intro e he
          rcases List.mem_cons.1 he with rfl | he
          · exact hafter
          · exact hafter.trans_le (hlater e he)
        have hnone : (due :: rest).filter (·.time < d.time) = [] := by
          rw [List.filter_eq_nil_iff]
          intro e he
          simpa using (hbehind e he).le
        have hfind : (due :: rest).find? (·.time = d.time) = none := by
          rw [List.find?_eq_none]
          intro e he
          simpa using (hbehind e he).ne'
        refine ⟨?_, Or.inr ⟨hopen, by simpa using hafter⟩⟩
        rw [deliverable, if_neg hexpired, hq, hnone, hfind]
        rfl

theorem isPrefix_deliverable (hs : s.InOrder) : deliverable d s now <+: s.queue := by
  induction hq : s.queue generalizing s now with
  | nil =>
      rcases deliverable_cases d now hs with ⟨hnil, -⟩ | ⟨due, rest, hcons, -⟩
      · rw [hnil]
      · simp [hq] at hcons
  | cons due rest ih =>
      rcases deliverable_cases d now hs with
        ⟨hnil, -⟩ | ⟨due', rest', hcons, -, -, heq⟩
      · rw [hnil]
        exact List.nil_prefix
      · obtain ⟨rfl, rfl⟩ := List.cons.inj (hq.symm.trans hcons)
        rw [heq, List.prefix_cons_inj]
        exact ih (hs.of_cons hq) rfl

variable (d now) in
theorem later_of_cons (hs : s.InOrder) {due : Due} {rest : List Due}
    (hq : s.queue = due :: rest) :
    ∀ e ∈ deliverable d { s with queue := rest } now, due.time ≤ e.time :=
  fun e he => hs.le_of_cons hq e ((isPrefix_deliverable (hs.of_cons hq)).subset he)

/-- Looked at after an earlier event, later ones are shown no differently. -/
theorem map_sighting_max {time : Nat} {es : List Due} (h : ∀ e ∈ es, time ≤ e.time) :
    es.map (sighting d (max now time)) = es.map (sighting d now) := by
  apply List.map_congr_left
  intro e he
  have hle := h e he
  have hmax : max (max now time) e.time = max now e.time := by omega
  simp only [sighting, hmax]

end Deliverable

/-! ## The loop -/

section Loop

variable {enough : List Sighting → Bool} {d : Deadline} {t : CancelToken}
  {seen : List Sighting} {s : Session} {now : Nat}

/-- With nothing left to deliver, a wait runs to the deadline. -/
theorem awaitEvent_of_undeliverable (ht : t.isCancelled = false)
    (h : d.time ≤ now ∨ now < d.time ∧ ∀ due ∈ s.queue.head?, d.time < due.time) :
    awaitEvent d t s now = (.error (noCallback d s), s, max now d.time) := by
  rcases h with hover | ⟨hopen, hlate⟩
  · rw [awaitEvent_of_expired ht hover, Nat.max_eq_left hover]
  · rw [awaitEvent_of_silent ht hopen.le hlate, Nat.max_eq_right hopen.le]

theorem FirstMatch.subset {shown : List Due}
    {out : Except Failure (List Sighting) × Session × Nat}
    (h : FirstMatch enough d seen s now shown out) : shown ⊆ deliverable d s now := by
  cases h with
  | @found before rest due hall hshown =>
      rw [hall, hshown, List.append_cons before due rest]
      exact List.subset_append_left _ _
  | missed hshown =>
      rw [hshown]
      exact List.Subset.refl _

/-- An event that is not enough goes before whatever is shown after it. -/
theorem FirstMatch.later {due : Due} {rest shown : List Due}
    {out : Except Failure (List Sighting) × Session × Nat} (hq : s.queue = due :: rest)
    (hdue : due.time ≤ d.time)
    (hall : deliverable d s now =
      due :: deliverable d { s with queue := rest } (max now due.time))
    (hlater : ∀ e ∈ deliverable d { s with queue := rest } (max now due.time),
      due.time ≤ e.time)
    (hen : enough (seen ++ [sighting d now due]) = false)
    (h : FirstMatch enough d (seen ++ [sighting d now due]) { s with queue := rest }
      (max now due.time) shown out) :
    FirstMatch enough d seen s now (due :: shown) out := by
  have hmap : shown.map (sighting d (max now due.time)) = shown.map (sighting d now) :=
    map_sighting_max fun e he => hlater e (h.subset he)
  have hseen : seen ++ (due :: shown).map (sighting d now) =
      seen ++ [sighting d now due] ++ shown.map (sighting d now) := by simp
  cases h with
  | @found before behind due' hrest hshown hno hyes hout =>
      rw [hrest] at hall hlater
      have htime : due.time ≤ due'.time := hlater due' (by simp)
      have hclock : max (max now due.time) due'.time = max now due'.time := by omega
      have hbefore : before.map (sighting d (max now due.time)) = before.map (sighting d now) :=
        map_sighting_max fun e he => hlater e (List.mem_append_left _ he)
      rw [hmap] at hyes hout
      refine .found (due :: before) hall (by rw [hshown]; rfl)
        (.cons hen (hbefore ▸ hno)) (hseen ▸ hyes) ?_
      rw [hout, hclock, hseen, hq]
      rfl
  | missed hshown hno hout =>
      have hclock : max (max now due.time) d.time = max now d.time := by omega
      refine .missed (by rw [hall, hshown]) (.cons hen (hmap ▸ hno)) ?_
      rw [hout, hclock, hq]
      rfl

variable (enough seen now) in
/-- A gathering finds the first match among what can be delivered. -/
theorem exists_firstMatch (ht : t.isCancelled = false) (hpoll : 0 < d.timeouts.poll)
    (hs : s.InOrder) :
    ∃ shown, FirstMatch enough d seen s now shown (gather enough d t seen s now) ∧
      Gathers enough d t seen s now (shown.map (sighting d now))
        (gather enough d t seen s now) := by
  induction hall : deliverable d s now generalizing s now seen with
  | nil =>
      rcases deliverable_cases d now hs with ⟨-, hend⟩ | ⟨due, rest, -, -, -, hcons⟩
      · obtain ⟨looks, hwaits, -⟩ := @exists_waits d t s now hpoll
        have hawait := awaitEvent_of_undeliverable ht hend
        rw [hawait] at hwaits
        rw [gather_of_error hawait]
        exact ⟨[], .missed hall.symm (rejects_nil enough seen) rfl, .failed hwaits⟩
      · exact absurd (hall.symm.trans hcons) (List.cons_ne_nil _ _).symm
  | cons due es ih =>
      rcases deliverable_cases d now hs with ⟨hnil, -⟩ | ⟨due', rest, hq, hopen, hdue, hcons⟩
      · exact absurd (hall.symm.trans hnil) (List.cons_ne_nil _ _)
      · obtain ⟨rfl, rfl⟩ := List.cons.inj (hall.symm.trans hcons)
        obtain ⟨looks, hwaits, -⟩ := @exists_waits d t s now hpoll
        have hawait := awaitEvent_of_due ht hopen hq hdue
        rw [hawait] at hwaits
        have hstep : gather enough d t seen s now = _ := gather_of_ok hawait
        by_cases hen : enough (seen ++ [sighting d now due]) = true
        · rw [hstep.trans (if_pos hen)]
          refine ⟨[due], .found [] hall rfl (rejects_nil enough seen) hen ?_,
            .accepted hwaits hen⟩
          rw [hq]
          rfl
        · rw [hstep.trans (if_neg hen)]
          rw [Bool.not_eq_true] at hen
          have hlater := later_of_cons d (max now due.time) hs hq
          obtain ⟨shown, hmatch, hgathers⟩ :=
            ih (seen ++ [sighting d now due]) _ (hs.of_cons hq) rfl
          refine ⟨due :: shown, hmatch.later hq hdue hcons hlater hen, ?_⟩
          have hmap : shown.map (sighting d (max now due.time)) = shown.map (sighting d now) :=
            map_sighting_max fun e he => hlater e (hmatch.subset he)
          rw [hmap] at hgathers
          exact .dropped hwaits hen hgathers

/-- There is only one way for the loop to go. -/
theorem Gathers.unique (hpoll : 0 < d.timeouts.poll) {shown shown' : List Sighting}
    {out out' : Except Failure (List Sighting) × Session × Nat}
    (h : Gathers enough d t seen s now shown out)
    (h' : Gathers enough d t seen s now shown' out') : shown = shown' ∧ out = out' := by
  induction h generalizing shown' out' with
  | failed hwaits =>
      cases h' with
      | failed hwaits' =>
          cases hwaits.unique hpoll hwaits'
          exact ⟨rfl, rfl⟩
      | accepted hwaits' | dropped hwaits' =>
          cases hwaits.unique hpoll hwaits'
  | accepted hwaits hen =>
      cases h' with
      | failed hwaits' => cases hwaits.unique hpoll hwaits'
      | accepted hwaits' hen' =>
          cases hwaits.unique hpoll hwaits'
          exact ⟨rfl, rfl⟩
      | dropped hwaits' hen' =>
          cases hwaits.unique hpoll hwaits'
          simp [hen] at hen'
  | dropped hwaits hen hrest ih =>
      cases h' with
      | failed hwaits' => cases hwaits.unique hpoll hwaits'
      | accepted hwaits' hen' =>
          cases hwaits.unique hpoll hwaits'
          simp [hen] at hen'
      | dropped hwaits' hen' hrest' =>
          cases hwaits.unique hpoll hwaits'
          obtain ⟨rfl, rfl⟩ := ih hrest'
          exact ⟨rfl, rfl⟩

theorem awaitEvent_of_poll (hs : s.InOrder) (poll : Nat) :
    awaitEvent { d with timeouts := { d.timeouts with poll := poll } } t s now =
      awaitEvent d t s now := by
  rw [awaitEvent_eq_boundedWait hs, awaitEvent_eq_boundedWait hs]
  rfl

/-- How often it looks makes no difference to what is gathered. -/
theorem gather_of_poll (hs : s.InOrder) (poll : Nat) :
    gather enough { d with timeouts := { d.timeouts with poll := poll } } t seen s now =
      gather enough d t seen s now := by
  fun_induction gather enough d t seen s now with
  | case1 seen s now f s' now' hawait =>
      exact gather_of_error ((awaitEvent_of_poll hs poll).trans hawait)
  | case2 seen s now e s' now' hawait seen' hen =>
      rw [gather_of_ok ((awaitEvent_of_poll hs poll).trans hawait)]
      exact if_pos hen
  | case3 seen s now e s' now' hawait seen' hen ih =>
      obtain ⟨due, rest, hq, -, rfl⟩ := exists_of_awaitEvent_ok hawait
      rw [gather_of_ok ((awaitEvent_of_poll hs poll).trans hawait)]
      exact (if_neg hen).trans (ih (hs.of_cons hq))

end Loop

/-- Whether an event is wanted may depend on all that was shown before it.  The loop ends,
and in one way only: in the order of the queue, and each once, the deliverable events are
shown up to the first with which it has enough, and this one is the answer; or all are
shown, and the time is over.  The rest of the queue is left, and the poll interval makes
no difference. -/
theorem gather_finds_first (enough : List Sighting → Bool) (d : Deadline) (t : CancelToken)
    (s : Session) (now : Nat) (ht : t.isCancelled = false) (hpoll : 0 < d.timeouts.poll)
    (hs : s.InOrder) :
    deliverable d s now <+: s.queue ∧
      (∃ shown, FirstMatch enough d [] s now shown (gather enough d t [] s now) ∧
        ∀ looked out, Gathers enough d t [] s now looked out ↔
          looked = shown.map (sighting d now) ∧ out = gather enough d t [] s now) ∧
      ∀ poll, 0 < poll →
        gather enough { d with timeouts := { d.timeouts with poll := poll } } t [] s now =
          gather enough d t [] s now := by
  obtain ⟨shown, hmatch, hgathers⟩ := exists_firstMatch enough [] now ht hpoll hs
  refine ⟨isPrefix_deliverable hs, ⟨shown, hmatch, fun looked out => ?_⟩,
    fun poll _ => gather_of_poll hs poll⟩
  constructor
  · exact fun h => h.unique hpoll hgathers
  · rintro ⟨rfl, rfl⟩
    exact hgathers

/-- Of two events at the deadline the second is not delivered, so it is waited for in
vain. -/
theorem gather_finds_first_in_vain :
    let d : Deadline := ⟨⟨50, 20⟩, 0⟩
    let early : List Due :=
      [⟨5, .disconnected "past"⟩, ⟨30, .disconnected "soon"⟩, ⟨50, .discoveryComplete⟩]
    let late : List Due := [⟨50, .disconnected "late"⟩, ⟨60, .disconnected "later"⟩]
    let s : Session := ⟨.lowEnergy, early ++ late, true⟩
    let isLate : List Sighting → Bool := fun seen =>
      seen.getLast?.any (·.event = .disconnected "late")
    CancelToken.fresh.isCancelled = false ∧ 0 < d.timeouts.poll ∧ s.InOrder ∧
      deliverable d s 10 = early ∧
      gather isLate d .fresh [] s 10 = (.error (noCallback d s), { s with queue := late }, 50) := by
  intro d early late s isLate
  have hpoll : 0 < d.timeouts.poll := by decide
  have hs : s.InOrder := by simp [s, early, late, Session.InOrder]
  have hearly : deliverable d s 10 = early := by decide
  obtain ⟨-, ⟨shown, hmatch, -⟩, -⟩ := gather_finds_first isLate d .fresh s 10 rfl hpoll hs
  refine ⟨rfl, hpoll, hs, hearly, ?_⟩
  cases hmatch with
  | @found before rest due hall hshown hno hyes hout =>
      have hdue : due ∈ early := by
        rw [← hearly, hall]
        simp
      have hlate : due.event = .disconnected "late" := by
        simpa [isLate, hshown, sighting] using hyes
      simp only [early, List.mem_cons, List.not_mem_nil, or_false] at hdue
      rcases hdue with rfl | rfl | rfl <;> simp at hlate
  | missed hshown hno hout =>
      rw [hout, hshown, hearly]
      rfl

end Compliance.Check
