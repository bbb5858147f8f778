import Compliance.Proofs.Run.Case

/-!
# The lifecycle of a run

Every case takes one turn.  The calls of a turn are decided by the bench the
case finds, and the bench it leaves is what these calls made of it.  A run is
the turns of its cases, one behind the other.
-/

namespace Compliance.Run

open Compliance.Check (Bench Context TestCase)
open Compliance.Device (Profile)

variable {σ : Type}

/-- The calls in a journal, by the index of their case. -/
def calls (journal : List Happening) : List (Nat × Phase) :=
  journal.filterMap fun
    | .called index phase => some (index, phase)
    | _ => none

@[simp] theorem calls_append (j k : List Happening) :
    calls (j ++ k) = calls j ++ calls k := by
  simp [calls]

@[simp] theorem calls_nil : calls [] = [] := rfl

@[simp] theorem calls_cons_changed (s : State) (j : List Happening) :
    calls (.changed s :: j) = calls j := rfl

@[simp] theorem calls_cons_recorded (s : State) (j : List Happening) :
    calls (.recorded s :: j) = calls j := rfl

@[simp] theorem calls_cons_called (index : Nat) (phase : Phase) (j : List Happening) :
    calls (.called index phase :: j) = (index, phase) :: calls j := rfl

/-- The calls a case gets when it finds a bench. -/
def phasesOn (device : Profile) (c : TestCase) (b : Bench) : List Phase :=
  if b.token.isCancelled = true ∨ device.missing c.requires ≠ [] then [.cleanup]
  else if (c.prepare.run b).1 = .returned () then [.prepare, .execute, .cleanup]
  else [.prepare, .cleanup]

/-- What one call makes of a bench. -/
def benchAfter (plan : Plan) (c : TestCase) (b : Bench) : Phase → Bench
  | .prepare => (c.prepare.run b).2
  | .execute =>
      (c.execute.run (Context.start c.id plan.abi plan.timeouts b) b).bench
  | .cleanup => (c.cleanup.run b).2

/-- One case with the bench it found and the calls it got. -/
structure Turn where
  testCase : TestCase
  start : Bench
  phases : List Phase

def Turn.finish (plan : Plan) (t : Turn) : Bench :=
  t.phases.foldl (benchAfter plan t.testCase) t.start

/-- The turn of a case; it holds no session at its start. -/
def turnOf (device : Profile) (c : TestCase) (b : Bench) : Turn :=
  let start := { b with session := none }
  ⟨c, start, phasesOn device c start⟩

/-- The turns of cases, each on the bench that the one before it left. -/
def turns (plan : Plan) (device : Profile) : List TestCase → Bench → List Turn
  | [], _ => []
  | c :: rest, b =>
      turnOf device c b ::
        turns plan device rest ((turnOf device c b).finish plan)

/-- The calls of turns, in order, by the index of their case. -/
def callsOf (index : Nat) : List Turn → List (Nat × Phase)
  | [] => []
  | t :: rest => t.phases.map (index, ·) ++ callsOf (index + 1) rest

/-- The rules for the calls of one case. -/
structure Turn.Lawful (device : Profile) (t : Turn) : Prop where
  shape : t.phases = [.cleanup] ∨ t.phases = [.prepare, .cleanup] ∨
    t.phases = [.prepare, .execute, .cleanup]
  prepared : .prepare ∈ t.phases ↔ t.start.token.isCancelled = false ∧
    device.missing t.testCase.requires = []
  executed : .execute ∈ t.phases ↔
    .prepare ∈ t.phases ∧ (t.testCase.prepare.run t.start).1 = .returned ()
  cleanedUp : t.phases.count .cleanup = 1

theorem lawful_phasesOn (device : Profile) (c : TestCase) (b : Bench) :
    (Turn.mk c b (phasesOn device c b)).Lawful device := by
  by_cases hskip : b.token.isCancelled = true ∨ device.missing c.requires ≠ []
  · have hphases : phasesOn device c b = [.cleanup] := by
      simp [phasesOn, hskip]
    have hnot : ¬ (b.token.isCancelled = false ∧ device.missing c.requires = []) := by
      rintro ⟨htoken, hmissing⟩
      rcases hskip with h | h
      · simp [htoken] at h
      · exact h hmissing
    rw [hphases]
    exact ⟨Or.inl rfl, by simpa using fun h => not_and.1 hnot h, by simp, by simp⟩
  · have hgo : b.token.isCancelled = false ∧ device.missing c.requires = [] := by
      simpa using hskip
    by_cases hready : (c.prepare.run b).1 = .returned ()
    · have hphases : phasesOn device c b = [.prepare, .execute, .cleanup] := by
        simp [phasesOn, hskip, hready]
      rw [hphases]
      exact ⟨Or.inr (Or.inr rfl), by simpa using hgo, by simpa using hready, by simp⟩
    · have hphases : phasesOn device c b = [.prepare, .cleanup] := by
        simp [phasesOn, hskip, hready]
      rw [hphases]
      exact ⟨Or.inr (Or.inl rfl), by simpa using hgo, by simpa using hready, by simp⟩

theorem testCase_turns (plan : Plan) (device : Profile) (cases : List TestCase)
    (b : Bench) : (turns plan device cases b).map (·.testCase) = cases := by
  induction cases generalizing b with
  | nil => rfl
  | cons c rest ih =>
      rw [turns, List.map_cons, ih]
      rfl

theorem lawful_of_mem_turns {plan : Plan} {device : Profile} {cases : List TestCase}
    {b : Bench} {t : Turn} (h : t ∈ turns plan device cases b) :
    t.Lawful device := by
  induction cases generalizing b with
  | nil => simp [turns] at h
  | cons c rest ih =>
      rw [turns] at h
      rcases List.mem_cons.1 h with rfl | h
      · exact lawful_phasesOn device c _
      · exact ih h

/-! ## From one case to the run -/

/-- The state as far as the calls of a case must leave it alone. -/
def progressOf (s : State) : Stage × Nat × Nat :=
  (s.stage, s.completed, s.total)

/-- Everything of a case but its cleanup makes the calls of its turn but the
last, and nothing else of the bench. -/
theorem attempt_calls (plan : Plan) (device : Profile) (index : Nat) (c : TestCase)
    (p : Progress σ) :
    let out := (attempt plan device index c p).2
    ∃ phases, phasesOn device c p.bench = phases ++ [.cleanup] ∧
      calls out.journal = calls p.journal ++ phases.map (index, ·) ∧
      out.bench = phases.foldl (benchAfter plan c) p.bench ∧
      progressOf out.state = progressOf p.state := by
  have hcourse := attempt_course plan device index c p
  generalize attempt plan device index c p = out at hcourse ⊢
  cases hcourse with
  | cancelled h => exact ⟨[], by simp [phasesOn, h], by simp, rfl, rfl⟩
  | lacking h hm => exact ⟨[], by simp [phasesOn, hm], by simp, rfl, rfl⟩
  | refused h hm r b hp =>
      exact ⟨[.prepare], by simp [phasesOn, h, hm, hp], by simp,
        by simp [benchAfter, hp], rfl⟩
  | brokenDown h hm q b hp =>
      exact ⟨[.prepare], by simp [phasesOn, h, hm, hp], by simp,
        by simp [benchAfter, hp], rfl⟩
  | executed h hm b hp =>
      exact ⟨[.prepare, .execute], by simp [phasesOn, h, hm, hp], by simp,
        by simp [benchAfter, hp], rfl⟩

theorem runCase_turn (o : Outlets σ) (plan : Plan) (device : Profile) (index : Nat)
    (c : TestCase) (p : Progress σ) :
    let out := runCase o plan device index c p
    let t := turnOf device c p.bench
    out.1.id = c.id ∧
      calls out.2.journal = calls p.journal ++ t.phases.map (index, ·) ∧
      out.2.bench = t.finish plan ∧
      progressOf out.2.state =
        (p.state.stage, p.state.completed + 1, p.state.total) := by
  intro out t
  obtain ⟨phases, hphases, hcalls, hbench, hstate⟩ := attempt_calls plan device index c
    (p.setBench { p.bench with session := none })
  have ht : t.phases = phases ++ [.cleanup] := hphases
  refine ⟨id_afterCleanup (id_attempt plan device index c _), ?_, ?_, ?_⟩
  · simp [out, runCase, hcalls, ht]
  · rw [Turn.finish, ht, List.foldl_append]
    simp only [out, runCase, Progress.bench_record, Progress.bench_setState,
      Progress.bench_setBench, Progress.bench_enter, hbench]
    rfl
  · simp only [progressOf, Prod.mk.injEq] at hstate
    simp only [out, runCase, progressOf, Progress.state_record,
      Progress.state_setState, State.complete, State.touch, Progress.state_setBench,
      Progress.state_enter, State.enter, Prod.mk.injEq]
    exact ⟨hstate.1, by rw [hstate.2.1]; rfl, hstate.2.2⟩

theorem runCases_turns (o : Outlets σ) (plan : Plan) (device : Profile) (index : Nat)
    (cases : List TestCase) (p : Progress σ) :
    let out := runCases o plan device index cases p
    let ts := turns plan device cases p.bench
    out.1.map (·.id) = cases.map (·.id) ∧
      calls out.2.journal = calls p.journal ++ callsOf index ts ∧
      progressOf out.2.state =
        (p.state.stage, p.state.completed + cases.length, p.state.total) := by
  induction cases generalizing index p with
  | nil => simp [runCases, turns, callsOf, progressOf]
  | cons c rest ih =>
      obtain ⟨hid, hcalls, hbench, hstate⟩ := runCase_turn o plan device index c p
      obtain ⟨hids, hrest, hfinal⟩ := ih (index + 1) (runCase o plan device index c p).2
      simp only [progressOf, Prod.mk.injEq] at hstate
      simp only [runCases, turns, callsOf, List.map_cons]
      refine ⟨by rw [hid, hids], ?_, ?_⟩
      · rw [hrest, hcalls, hbench, List.append_assoc]
      · rw [hfinal, hstate.1, hstate.2.1, hstate.2.2, List.length_cons]
        congr 2
        omega

theorem calls_advance (o : Outlets σ) (target : Stage) (p : Progress σ) :
    calls (p.advance o target).journal = calls p.journal := by
  unfold Progress.advance
  split
  · simp
  · rfl

theorem progressOf_advance (o : Outlets σ) {target : Stage} {p : Progress σ}
    (h : p.state.stage.canGoTo target = true) :
    progressOf (p.advance o target).state =
      (target, p.state.completed, p.state.total) := by
  rw [p.advance_of_canGoTo o h]
  rfl

theorem calls_opened (o : Outlets σ) (n : Naming) (count : Nat) (b : Bench) (s : σ) :
    calls (Progress.opened o n count b s).journal = [] := by
  simp [Progress.opened, calls_advance]

theorem progressOf_opened (o : Outlets σ) (n : Naming) (count : Nat) (b : Bench)
    (s : σ) : progressOf (Progress.opened o n count b s).state = (.running, 0, count) :=
  rfl

theorem progressOf_runCases_opened (o : Outlets σ) (plan : Plan) (device : Profile)
    (n : Naming) (count : Nat) (cases : List TestCase) (b : Bench) (s : σ) :
    progressOf (runCases o plan device 0 cases (Progress.opened o n count b s)).2.state =
      (.running, cases.length, count) := by
  obtain ⟨-, -, hstate⟩ := runCases_turns o plan device 0 cases
    (Progress.opened o n count b s)
  have hopened := progressOf_opened o n count b s
  simp only [progressOf, Prod.mk.injEq] at hopened
  rw [hopened.1, hopened.2.1, hopened.2.2, Nat.zero_add] at hstate
  exact hstate

section Suite

variable (o : Outlets σ) (plan : Plan) (device : Profile) (n : Naming)
  (cases : List TestCase) (b : Bench) (s : σ)

theorem ids_casesRun : (casesRun o plan device n cases b s).1.map (·.id) = cases.map (·.id) :=
  (runCases_turns o plan device 0 cases (Progress.opened o n cases.length b s)).1

theorem ids_runSuite : (runSuite o plan device n cases b s).summary.results.map (·.id) =
    cases.map (·.id) :=
  ids_casesRun o plan device n cases b s

theorem calls_runSuite : calls (runSuite o plan device n cases b s).progress.journal =
    callsOf 0 (turns plan device cases b) := by
  obtain ⟨-, hcalls, -⟩ := runCases_turns o plan device 0 cases
    (Progress.opened o n cases.length b s)
  rw [calls_opened, Progress.bench_opened, List.nil_append] at hcalls
  rw [progress_runSuite, calls_advance]
  exact (calls_advance o _ _).trans hcalls

theorem progressOf_casesRun : progressOf (casesRun o plan device n cases b s).2.state =
    (.running, cases.length, cases.length) :=
  progressOf_runCases_opened o plan device n cases.length cases b s

theorem canGoTo_reporting :
    (casesRun o plan device n cases b s).2.state.stage.canGoTo .reporting = true := by
  have hstage := congrArg (·.1) (progressOf_casesRun o plan device n cases b s)
  simp only [progressOf] at hstage
  rw [hstage]
  rfl

theorem progressOf_reporting : progressOf (reporting o plan device n cases b s).state =
    (.reporting, cases.length, cases.length) := by
  have hran := progressOf_casesRun o plan device n cases b s
  simp only [progressOf, Prod.mk.injEq] at hran
  refine (progressOf_advance o (canGoTo_reporting o plan device n cases b s)).trans ?_
  rw [hran.2.1, hran.2.2]

theorem canGoTo_done :
    (reporting o plan device n cases b s).state.stage.canGoTo .done = true := by
  have hstage := congrArg (·.1) (progressOf_reporting o plan device n cases b s)
  simp only [progressOf] at hstage
  rw [hstage]
  rfl

theorem progressOf_runSuite : progressOf (runSuite o plan device n cases b s).progress.state =
    (.done, cases.length, cases.length) := by
  have hreporting := progressOf_reporting o plan device n cases b s
  simp only [progressOf, Prod.mk.injEq] at hreporting
  have hdone := progressOf_advance o
    (p := { reporting o plan device n cases b s with
      outbox := (finalFlush o plan device n cases b s).2.1
      store := (finalFlush o plan device n cases b s).2.2 })
    (canGoTo_done o plan device n cases b s)
  rw [hreporting.2.1, hreporting.2.2] at hdone
  exact hdone

end Suite

/-- Every case gets one result and one lawful turn, in order, and the suite
ends with all of them completed. -/
theorem runSuite_lifecycle (o : Outlets σ) (plan : Plan) (device : Profile)
    (n : Naming) (cases : List TestCase) (b : Bench) (s : σ) :
    let r := runSuite o plan device n cases b s
    let ts := turns plan device cases b
    r.summary.results.map (·.id) = cases.map (·.id) ∧
      ts.map (·.testCase) = cases ∧
      calls r.progress.journal = callsOf 0 ts ∧
      (∀ t ∈ ts, t.Lawful device) ∧
      progressOf r.progress.state = (.done, cases.length, cases.length) := by
  intro r ts
  exact ⟨ids_runSuite o plan device n cases b s, testCase_turns plan device cases b,
    calls_runSuite o plan device n cases b s, fun t ht => lawful_of_mem_turns ht,
    progressOf_runSuite o plan device n cases b s⟩

end Compliance.Run
