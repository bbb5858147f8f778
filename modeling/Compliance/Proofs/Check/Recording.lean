import Compliance.Proofs.Check.GivingBack
import Compliance.Proofs.Check.Waiting
import Compliance.Proofs.Report.Saved

/-!
# What test code records

The clock never goes back.  A log keeps what it holds and stays fit to be
written down, and the checks of the registry record two metrics at most.
-/

namespace Compliance.Ordered

variable {κ α : Type} [DecidableEq κ] [LT κ] [DecidableLT κ]

theorem length_put_le (key : κ) (v : α) (table : List (κ × α)) :
    (put key v table).length ≤ table.length + 1 := by
  induction table with
  | nil => simp [put]
  | cons entry rest ih =>
      obtain ⟨k, w⟩ := entry
      unfold put
      split
      · simp
      · split
        · simp
        · simpa using ih

end Compliance.Ordered

namespace Compliance.Report.Log

variable {log log' : Log} {m : Metric}

theorem size_add_le (h : log.add m = .ok log') : log'.size ≤ log.size + 1 := by
  obtain ⟨_, rfl⟩ := add_eq_ok h
  have hlength := Ordered.length_put_le m.name m log.details
  simp only [size]
  omega

theorem size_setHeadline_le (h : log.setHeadline m = .ok log') :
    log'.size ≤ log.size + 1 := by
  obtain ⟨_, hnone, rfl⟩ := setHeadline_eq_ok h
  simp [size, hnone]

/-- A metric whose name is behind all others goes to the end. -/
theorem add_of_lt (log : Log) (hfinite : m.value.isFinite = true)
    (h : ∀ e ∈ log.details, e.1 < m.name) :
    log.add m = .ok { log with details := log.details ++ [(m.name, m)] } := by
  have hnone : log.detail? m.name = none := by
    rw [detail?, Ordered.find?_eq_none_iff]
    rintro hmem
    obtain ⟨e, he, heq⟩ := List.mem_map.1 hmem
    exact Ordered.KeyOrder.ne (h e he) heq
  simp [add, hfinite, hnone, Ordered.put_append_of_lt m h]

theorem setHeadline_of_none (hfinite : m.value.isFinite = true)
    (h : log.headline = none) : log.setHeadline m = .ok { log with headline := some m } := by
  simp [setHeadline, hfinite, h]

end Compliance.Report.Log

namespace Compliance.Check

open Compliance.Device (Session)

/-! ## The clock -/

theorem clock_le_awaitEvent (d : Deadline) (t : CancelToken) (s : Session) (now : Nat) :
    now ≤ (awaitEvent d t s now).2.2 := by
  fun_induction awaitEvent d t s now with
  | case1 | case2 => exact le_refl _
  | case3 now h hexp e s' now' hnext =>
      have hle := s.clock_le_next (slice d now) now
      rw [hnext] at hle
      exact hle
  | case4 now h hexp s' now' hnext ih => exact le_trans (Nat.le_add_right _ _) ih

theorem clock_le_gather (enough : List Sighting → Bool) (d : Deadline) (t : CancelToken)
    (seen : List Sighting) (s : Session) (now : Nat) :
    now ≤ (gather enough d t seen s now).2.2 := by
  fun_induction gather enough d t seen s now with
  | case1 seen s now f s' now' hawait | case2 seen s now e s' now' hawait seen' hen =>
      have hle := clock_le_awaitEvent d t s now
      rw [hawait] at hle
      exact hle
  | case3 seen s now e s' now' hawait seen' hen ih =>
      have hle := clock_le_awaitEvent d t s now
      rw [hawait] at hle
      exact le_trans hle ih

section Due

variable {d : Deadline} {t : CancelToken} {s : Session} {now : Nat} {due : Device.Due}
  {rest : List Device.Due} (ht : t.isCancelled = false) (hd : d.isExpired now = false)
  (hq : s.queue = due :: rest) (hdue : due.time ≤ now)

include ht hd hq hdue

/-- An event that is due takes no time, and may be all that was waited for. -/
theorem gather_due {enough : List Sighting → Bool}
    (henough : enough [⟨due.event, d.elapsed now⟩] = true) :
    gather enough d t [] s now =
      (.ok [⟨due.event, d.elapsed now⟩], { s with queue := rest }, now) := by
  have hopen := isExpired_eq_false_iff.1 hd
  have hawait := awaitEvent_of_due ht hopen hq (hdue.trans hopen.le)
  rw [Nat.max_eq_left hdue] at hawait
  rw [gather_of_ok hawait, List.nil_append, if_pos henough]

end Due

theorem Program.run_gather_ok {α : Type} {enough : List Sighting → Bool}
    {next : List Sighting → Program α} {c : Context} {b : Bench} {s s' : Session}
    {seen : List Sighting} {now : Nat} (hs : b.session = some s)
    (hg : Check.gather enough c.deadline b.token [] s b.clock = (.ok seen, s', now)) :
    (gather enough next).run c b =
      (next seen).run c { b with session := some s', clock := now } := by
  simp only [run, hs, hg]

theorem Program.run_record_ok {α : Type} {m : Report.Metric} {next : Program α} {c : Context}
    {log : Report.Log}
    (h : c.log.add m = .ok log) (b : Bench) :
    (Program.record m next).run c b = next.run { c with log := log } b := by
  rw [Program.run, h]

theorem Program.run_headline_ok {α : Type} {m : Report.Metric} {next : Program α} {c : Context}
    {log : Report.Log} (h : c.log.setHeadline m = .ok log) (b : Bench) :
    (Program.headline m next).run c b = next.run { c with log := log } b := by
  rw [Program.run, h]

@[simp] theorem Bench.clock_release (b : Bench) : b.release.clock = b.clock := by
  unfold release
  split <;> rfl

theorem Bench.clock_acquire {b b' : Bench} {c : Device.Capability}
    (h : b.acquire c = .ok b') : b'.clock = b.clock := by
  unfold acquire at h
  split at h
  · simp at h
  · simp only [Except.ok.injEq] at h
    rw [← h]
    exact clock_release _

theorem Preparation.clock_le_run (p : Preparation) (b : Bench) :
    b.clock ≤ (p.run b).2.clock := by
  induction p generalizing b with
  | ready | skip r | panic q => exact le_refl _
  | cancel next ih => exact ih b.cancel
  | sleep ms next ih => exact le_trans (Nat.le_add_right _ ms) (ih (b.sleep ms))
  | acquire c next ih =>
      simp only [run]
      cases hb : b.acquire c with
      | error r => exact le_refl _
      | ok b' => exact Bench.clock_acquire hb ▸ ih b'

theorem Cleanup.clock_le_run (c : Cleanup) (b : Bench) : b.clock ≤ (c.run b).2.clock := by
  induction c generalizing b with
  | done | panic q => exact le_refl _
  | cancel next ih => exact ih b.cancel
  | sleep ms next ih => exact le_trans (Nat.le_add_right _ ms) (ih (b.sleep ms))
  | release next ih => exact b.clock_release ▸ ih b.release

/-! ## The log -/

/-- What running a program does to its clock and its log. -/
structure Program.Recorded (last : Nat) (c : Context) (b : Bench) {α : Type}
    (f : Finish α) : Prop where
  clock : b.clock ≤ f.bench.clock
  sound : c.log.Sound last → f.log.Sound last

namespace Program

variable {α : Type} {p q : Point α} {f : Finish α}

theorem Step.recorded (h : Step p q) (last : Nat) : p.bench.clock ≤ q.bench.clock ∧
    (p.context.log.Sound last → q.context.log.Sound last) := by
  cases h with
  | cancel | look | send | release => exact ⟨le_refl _, id⟩
  | sleep ms => exact ⟨Nat.le_add_right _ ms, id⟩
  | record next b hadd => exact ⟨le_refl _, fun hs => hs.add hadd⟩
  | headline next b hset => exact ⟨le_refl _, fun hs => hs.setHeadline hset⟩
  | @gather enough next c b s s' seen now hs hgather =>
      have hle := clock_le_gather enough c.deadline b.token [] s b.clock
      rw [hgather] at hle
      exact ⟨hle, id⟩

theorem Halt.clock_le (h : Halt p f) : p.bench.clock ≤ f.bench.clock := by
  cases h with
  | returned | failed | panicked | record | headline | adrift | send => exact le_refl _
  | @gather enough next c b s s' e now hs hgather =>
      have hle := clock_le_gather enough c.deadline b.token [] s b.clock
      rw [hgather] at hle
      exact hle

theorem recorded_run (last : Nat) (code : Program α) (c : Context) (b : Bench) :
    Recorded last c b (code.run c b) := by
  apply finish_induction (Q := Recorded last c b) (p := ⟨code, c, b⟩)
    (P := fun p => b.clock ≤ p.bench.clock ∧ (c.log.Sound last → p.context.log.Sound last))
  · rintro p q ⟨hclock, hsound⟩ hstep
    obtain ⟨hle, hkept⟩ := hstep.recorded last
    exact ⟨hclock.trans hle, hkept ∘ hsound⟩
  · rintro p f ⟨hclock, hsound⟩ hhalt
    exact ⟨hclock.trans hhalt.clock_le, hhalt.log_eq ▸ hsound⟩
  · exact ⟨le_refl _, id⟩

/-- No run of the program records more metrics than given. -/
def AtMost : Nat → Program α → Prop
  | _, pure _ | _, fail _ | _, panic _ => True
  | n, cancel next | n, sleep _ next | n, send _ next | n, release next => next.AtMost n
  | n, record _ next | n, headline _ next => 0 < n ∧ next.AtMost (n - 1)
  | n, look next => ∀ v, (next v).AtMost n
  | n, gather _ next => ∀ seen, (next seen).AtMost n

theorem Step.atMost {n : Nat} (h : Step p q) (hp : p.rest.AtMost n) :
    ∃ m, q.rest.AtMost m ∧ q.context.log.size + m ≤ p.context.log.size + n := by
  cases h with
  | cancel | sleep | send | release => exact ⟨n, hp, le_refl _⟩
  | look | gather => exact ⟨n, hp _, le_refl _⟩
  | record next b hadd =>
      obtain ⟨hpos, hnext⟩ := hp
      have hsize := Report.Log.size_add_le hadd
      refine ⟨n - 1, hnext, ?_⟩
      simp only
      omega
  | headline next b hset =>
      obtain ⟨hpos, hnext⟩ := hp
      have hsize := Report.Log.size_setHeadline_le hset
      refine ⟨n - 1, hnext, ?_⟩
      simp only
      omega

theorem AtMost.size_run {code : Program α} {n : Nat} (hcode : code.AtMost n) (c : Context)
    (b : Bench) : (code.run c b).log.size ≤ c.log.size + n := by
  apply finish_induction (p := ⟨code, c, b⟩)
    (P := fun p => ∃ m, p.rest.AtMost m ∧ p.context.log.size + m ≤ c.log.size + n)
    (Q := fun f => f.log.size ≤ c.log.size + n)
  · rintro p q ⟨m, hm, hle⟩ hstep
    obtain ⟨k, hk, hnext⟩ := hstep.atMost hm
    exact ⟨k, hk, hnext.trans hle⟩
  · rintro p f ⟨m, -, hle⟩ hhalt
    rw [hhalt.log_eq]
    omega
  · exact ⟨n, hcode, le_refl _⟩

end Program

theorem Discovery.conclude_atMost (d : Discovery) (seen : List Sighting) :
    (d.conclude seen).AtMost 2 := by
  unfold conclude
  split
  · trivial
  · split
    · exact ⟨by omega, trivial⟩
    · split
      · trivial
      · simp only
        split
        · exact ⟨by omega, by omega, trivial⟩
        · trivial

theorem Discovery.program_atMost (d : Discovery) : d.program.AtMost 2 := by
  intro v
  by_cases hv : v.hasSession = true
  · simpa [hv, Program.AtMost] using d.conclude_atMost
  · simp [hv, Program.AtMost]

theorem Link.conclude_atMost (l : Link) (s : Sighting) : (l.conclude s).AtMost 2 := by
  unfold conclude
  split
  · split
    · trivial
    · exact ⟨by omega, by omega, trivial⟩
  · trivial
  · trivial
  · trivial

theorem Link.program_atMost (l : Link) : l.program.AtMost 2 := by
  intro v
  by_cases hv : v.hasSession = true
  · simp only [hv, ↓reduceIte]
    intro seen
    cases hlast : seen.getLast? with
    | none => simp [hlast, Program.AtMost]
    | some s => simpa [hlast] using l.conclude_atMost s
  · simp [hv, Program.AtMost]

end Compliance.Check

namespace Compliance.Suite

theorem Entry.toCase_atMost {e : Entry} {c : Check.TestCase} (h : e.toCase = .ok c) :
    c.execute.AtMost 2 := by
  rcases Entry.toCase_cases h with ⟨-, d, -, -, -, rfl⟩ | ⟨-, l, -, -, -, rfl⟩
  · exact d.program_atMost
  · exact l.program_atMost

/-- A suite is made into checks entry by entry. -/
theorem casesBehind_cons_eq_ok {seen : List Report.TestId} {e : Entry} {rest : List Entry}
    {cases : List Check.TestCase} (h : casesBehind seen (e :: rest) = .ok cases) :
    e.id ∉ seen ∧ ∃ c cs, e.toCase = .ok c ∧ casesBehind (e.id :: seen) rest = .ok cs ∧
      cases = c :: cs := by
  unfold casesBehind at h
  split at h
  · cases h
  · rename_i hseen
    split at h
    · cases h
    · rename_i c hc
      split at h
      · cases h
      · rename_i cs hcs
        cases h
        exact ⟨by simpa using hseen, c, cs, hc, hcs, rfl⟩

theorem casesBehind_spec {seen : List Report.TestId} {entries : List Entry}
    {cases : List Check.TestCase} (h : casesBehind seen entries = .ok cases) :
    (∀ c ∈ cases, c.execute.AtMost 2) ∧ (cases.map (·.id)).Nodup ∧
      ∀ id ∈ cases.map (·.id), id ∉ seen := by
  induction entries generalizing seen cases with
  | nil =>
      cases h
      simp
  | cons e rest ih =>
      obtain ⟨hseen, c, cs, hc, hcs, rfl⟩ := casesBehind_cons_eq_ok h
      obtain ⟨hatMost, hnodup, hnew⟩ := ih hcs
      have hid := id_toCase hc
      refine ⟨?_, ?_, ?_⟩
      · intro c' hc'
        rcases List.mem_cons.1 hc' with rfl | hc'
        · exact Entry.toCase_atMost hc
        · exact hatMost c' hc'
      · rw [List.map_cons, List.nodup_cons, hid]
        exact ⟨fun hmem => hnew _ hmem List.mem_cons_self, hnodup⟩
      · intro id hmem
        rw [List.map_cons, hid] at hmem
        rcases List.mem_cons.1 hmem with rfl | hmem
        · exact hseen
        · exact fun hin => hnew id hmem (List.mem_cons_of_mem _ hin)

/-- The checks of a suite have different ids and record little. -/
theorem casesOf_spec {entries : List Entry} {cases : List Check.TestCase}
    (h : casesOf entries = .ok cases) :
    (∀ c ∈ cases, c.execute.AtMost 2) ∧ (cases.map (·.id)).Nodup :=
  ⟨(casesBehind_spec h).1, (casesBehind_spec h).2.1⟩

end Compliance.Suite
