import Mathlib.Data.List.Chain
import Compliance.Proofs.Run.Midway

/-!
# The states of a run

A run changes the state of its suite in three ways: it moves the suite on, it
enters a test, or it completes one.  A state that names a test goes with a call,
any other is written down at once.  So the states of a run tell its journal, and
what every update keeps holds along all of them.
-/

namespace Compliance.Run

open Compliance.Check (Bench TestCase)
open Compliance.Device (Profile)
open Compliance.Time (Timestamp)

/-- The states in a journal, in order. -/
def states (journal : List Happening) : List State :=
  journal.filterMap fun
    | .changed s => some s
    | _ => none

/-- The snapshots in a journal, in order. -/
def snapshots (journal : List Happening) : List State :=
  journal.filterMap fun
    | .recorded s => some s
    | _ => none

/-! ## Updates -/

/-- What the runner makes of a state of a suite. -/
inductive Update (cases : List TestCase) (s : State) : State → Prop where
  | moved {target : Stage} (now : Timestamp) (h : s.stage.canGoTo target = true)
      (hall : target = .reporting → s.completed = cases.length) :
      Update cases s ({ s with stage := target, current := none }.touch now)
  | entered {c : TestCase} (phase : Phase) (now : Timestamp) (h : s.stage = .running)
      (hc : cases[s.completed]? = some c) :
      Update cases s (s.enter ⟨s.completed, c.id.text, phase⟩ now)
  | completed {c : TestCase} (now : Timestamp) (h : s.stage = .running)
      (hc : cases[s.completed]? = some c)
      (hcurrent : s.current = some ⟨s.completed, c.id.text, .cleanup⟩) :
      Update cases s (s.complete now)

/-- What fits together in a state of a suite. -/
structure State.Consistent (cases : List TestCase) (s : State) : Prop where
  total : s.total = cases.length
  early : s.stage = .idle ∨ s.stage = .preparing → s.completed = 0
  bounded : s.completed ≤ s.total
  late : s.stage = .reporting ∨ s.stage = .done → s.completed = cases.length
  current : ∀ t, s.current = some t → s.stage = .running ∧ t.index = s.completed ∧
    ∃ c, cases[t.index]? = some c ∧ t.testId = c.id.text

theorem State.consistent_start (cases : List TestCase) (suiteId : String) (seq : Nat)
    (now : Timestamp) : (State.start suiteId cases.length seq now).Consistent cases where
  total := rfl
  early _ := rfl
  bounded := Nat.zero_le _
  late h := by simp [State.start] at h
  current t h := by simp [State.start] at h

namespace Stage

variable {s target : Stage}

theorem canGoTo_iff : s.canGoTo target = true ↔ s.next? = some target := by
  simp [canGoTo]

theorem eq_idle_of_next? (h : s.next? = some target)
    (hearly : target = .idle ∨ target = .preparing) : s = .idle := by
  rcases hearly with rfl | rfl <;> cases s <;> simp [next?] at h ⊢

theorem eq_reporting_of_next? (h : s.next? = some .done) : s = .reporting := by
  cases s <;> simp [next?] at h ⊢

end Stage

namespace Update

variable {cases : List TestCase} {s t : State}

theorem consistent (h : Update cases s t) (hs : s.Consistent cases) :
    t.Consistent cases := by
  cases h with
  | @moved target now hgo hall =>
      rw [Stage.canGoTo_iff] at hgo
      refine ⟨hs.total, fun hearly => hs.early ?_, hs.bounded, fun hlate => ?_, nofun⟩
      · exact .inl (Stage.eq_idle_of_next? hgo hearly)
      · rcases hlate with rfl | rfl
        · exact hall rfl
        · exact hs.late (.inl (Stage.eq_reporting_of_next? hgo))
  | entered phase now hrunning hc =>
      refine ⟨hs.total, hs.early, hs.bounded, hs.late, fun u hu => ?_⟩
      obtain rfl := Option.some.inj hu
      exact ⟨hrunning, rfl, _, hc, rfl⟩
  | completed now hrunning hc hcurrent =>
      have hlt : s.completed < s.total := by
        rw [hs.total]
        exact (List.getElem?_eq_some_iff.1 hc).1
      refine ⟨hs.total, fun hearly => ?_, hlt, fun hlate => ?_, nofun⟩
      · simp [State.complete, State.touch, hrunning] at hearly
      · simp [State.complete, State.touch, hrunning] at hlate

theorem seq_eq (h : Update cases s t) : t.seq = s.seq + 1 := by
  cases h <;> rfl

/-- The suite stays where it is or goes one step on. -/
theorem stage_eq (h : Update cases s t) :
    t.stage = s.stage ∨ s.stage.next? = some t.stage := by
  cases h with
  | moved now hgo hall => exact .inr (Stage.canGoTo_iff.1 hgo)
  | entered | completed => exact .inl rfl

/-- A case is counted at the end of its cleanup, and at no other time. -/
theorem completed_eq (h : Update cases s t) :
    t.completed = s.completed ∨
      t.completed = s.completed + 1 ∧ s.stage = .running ∧ t.stage = .running ∧
        ∃ c, cases[s.completed]? = some c ∧
          s.current = some ⟨s.completed, c.id.text, .cleanup⟩ := by
  cases h with
  | moved | entered => exact .inl rfl
  | completed now hrunning hc hcurrent =>
      exact .inr ⟨rfl, hrunning, hrunning, _, hc, hcurrent⟩

end Update

/-! ## The journal of the states -/

/-- What goes with a new state: the call of the test it names, or a snapshot. -/
def State.sequel (s : State) : Happening :=
  match s.current with
  | some t => .called t.index t.phase
  | none => .recorded s

/-- The journal of a run that goes from a first state through others. -/
def journalOf (first : State) (later : List State) : List Happening :=
  .changed first :: later.flatMap fun s => [.changed s, s.sequel]

theorem journalOf_concat (first : State) (later : List State) (s : State) :
    journalOf first (later ++ [s]) = journalOf first later ++ [.changed s, s.sequel] := by
  simp [journalOf]

theorem states_journalOf (first : State) (later : List State) :
    states (journalOf first later) = first :: later := by
  induction later using List.reverseRecOn with
  | nil => rfl
  | append_singleton later s ih =>
      rw [journalOf_concat, states, List.filterMap_append, ← states, ih]
      cases hs : s.current <;> simp [State.sequel, hs]

/-- A state is written down when it names no test. -/
theorem snapshots_journalOf (first : State) (later : List State) :
    snapshots (journalOf first later) = later.filter (·.current.isNone) := by
  induction later using List.reverseRecOn with
  | nil => rfl
  | append_singleton later s ih =>
      rw [journalOf_concat, snapshots, List.filterMap_append, ← snapshots, ih]
      cases hs : s.current <;> simp [State.sequel, hs]

/-- Every call is named by a state. -/
theorem calls_journalOf (first : State) (later : List State) :
    calls (journalOf first later) =
      later.filterMap fun s => s.current.map fun t => (t.index, t.phase) := by
  induction later using List.reverseRecOn with
  | nil => rfl
  | append_singleton later s ih =>
      rw [journalOf_concat, calls_append, ih]
      cases hs : s.current <;> simp [State.sequel, hs]

/-! ## The states that a run goes through -/

variable {σ : Type}

/-- The run went from its first state through others, each an update of the one
before it, and its store has had the snapshots. -/
structure Recounts (o : Outlets σ) (cases : List TestCase) (first : State) (s : σ)
    (later : List State) (p : Progress σ) : Prop where
  journal : p.journal = journalOf first later
  updates : (first :: later).IsChain (Update cases)
  last : (first :: later).getLast? = some p.state
  store : p.store = (later.filter (·.current.isNone)).foldl (fun t u => o.recordState u t) s

namespace Recounts

variable {o : Outlets σ} {cases : List TestCase} {first : State} {s : σ}
  {later : List State} {p q : Progress σ}

theorem congr (h : Recounts o cases first s later p) (hjournal : q.journal = p.journal)
    (hstate : q.state = p.state) (hstore : q.store = p.store) :
    Recounts o cases first s later q :=
  ⟨hjournal.trans h.journal, h.updates, hstate ▸ h.last, hstore.trans h.store⟩

theorem updates_concat (h : Recounts o cases first s later p) {t : State}
    (hu : Update cases p.state t) : (first :: (later ++ [t])).IsChain (Update cases) := by
  rw [← List.cons_append]
  refine h.updates.append (.singleton t) fun u hlast v hhead => ?_
  rw [h.last, Option.mem_some_iff] at hlast
  rw [List.head?_singleton, Option.mem_some_iff] at hhead
  exact hlast ▸ hhead ▸ hu

theorem last_concat (t : State) : (first :: (later ++ [t])).getLast? = some t := by
  rw [← List.cons_append, List.getLast?_concat]

/-- The run goes on to a state and writes it down. -/
theorem publish (h : Recounts o cases first s later p) {t : State}
    (hu : Update cases p.state t) (hnone : t.current = none) :
    Recounts o cases first s (later ++ [t]) ((p.setState t).record o) where
  journal := by
    simp [journalOf_concat, h.journal, State.sequel, hnone]
  updates := h.updates_concat hu
  last := last_concat t
  store := by
    simp [h.store, hnone]

theorem advance (h : Recounts o cases first s later p) {target : Stage}
    (hgo : p.state.stage.canGoTo target = true)
    (hall : target = .reporting → p.state.completed = cases.length) :
    ∃ later', Recounts o cases first s later' (p.advance o target) := by
  rw [p.advance_of_canGoTo o hgo]
  exact ⟨_, h.publish (.moved p.now hgo hall) rfl⟩

/-! ### The turn of a case -/

variable {index : Nat} {c : TestCase}

/-- The run goes on to a state that names a test, and calls the test. -/
theorem enter (h : Recounts o cases first s later p) (hrunning : p.state.stage = .running)
    (hindex : p.state.completed = index) (hc : cases[index]? = some c) (phase : Phase) :
    Recounts o cases first s (later ++ [p.state.enter ⟨index, c.id.text, phase⟩ p.now])
      (p.enter index c phase) where
  journal := by
    rw [Progress.journal_enter, journalOf_concat, h.journal]
    rfl
  updates := by
    subst hindex
    exact h.updates_concat (.entered phase p.now hrunning hc)
  last := last_concat _
  store := by
    simp [h.store, State.enter, State.touch]

/-- Up to its cleanup a case only enters its phases. -/
theorem attempt (h : Recounts o cases first s later p) (plan : Plan) (device : Profile)
    (hrunning : p.state.stage = .running) (hindex : p.state.completed = index)
    (hc : cases[index]? = some c) :
    ∃ later', Recounts o cases first s later' (attempt plan device index c p).2 := by
  have hcourse := attempt_course plan device index c p
  generalize Run.attempt plan device index c p = out at hcourse ⊢
  have hprepare := h.enter hrunning hindex hc .prepare
  cases hcourse with
  | cancelled | lacking => exact ⟨later, h⟩
  | refused _ _ r b hp => exact ⟨_, hprepare.congr rfl rfl rfl⟩
  | brokenDown _ _ q b hp => exact ⟨_, hprepare.congr rfl rfl rfl⟩
  | executed _ _ b hp =>
      have hready : Recounts o cases first s _
          ((p.enter index c .prepare).setBench b) := hprepare.congr rfl rfl rfl
      have hexecute := hready.enter hrunning hindex hc .execute
      exact ⟨_, hexecute.congr rfl rfl rfl⟩

theorem runCase (h : Recounts o cases first s later p) (plan : Plan) (device : Profile)
    (hrunning : p.state.stage = .running) (hindex : p.state.completed = index)
    (hc : cases[index]? = some c) :
    ∃ later', Recounts o cases first s later' (runCase o plan device index c p).2 := by
  have hstart : Recounts o cases first s later
      (p.setBench { p.bench with session := none }) := h.congr rfl rfl rfl
  obtain ⟨tried, hattempt⟩ := hstart.attempt plan device hrunning hindex hc
  obtain ⟨-, -, -, -, hprogress⟩ := attempt_calls plan device index c
    (p.setBench { p.bench with session := none })
  simp only [Run.runCase]
  generalize Run.attempt plan device index c
    (p.setBench { p.bench with session := none }) = out at hattempt hprogress ⊢
  obtain ⟨r, q⟩ := out
  simp only [progressOf, Progress.state_setBench, Prod.mk.injEq] at hprogress
  obtain ⟨hstage, hcompleted, -⟩ := hprogress
  -- the attempt has counted nothing, so the cleanup still names this case
  have hcleanup := hattempt.enter (hstage.trans hrunning) (hcompleted.trans hindex) hc .cleanup
  let cleanedUp := (q.enter index c .cleanup).setBench (c.cleanup.run q.bench).2
  have hcleaned : Recounts o cases first s _ cleanedUp := hcleanup.congr rfl rfl rfl
  have hat : cleanedUp.state.completed = index := hcompleted.trans hindex
  have hcurrent : cleanedUp.state.current =
      some ⟨cleanedUp.state.completed, c.id.text, .cleanup⟩ := by
    rw [hat]
    rfl
  exact ⟨_, hcleaned.publish
    (.completed cleanedUp.now (hstage.trans hrunning) (hat.symm ▸ hc) hcurrent) rfl⟩

end Recounts

section Suite

variable (o : Outlets σ) (plan : Plan) (device : Profile) (n : Naming)
  (cases : List TestCase) (b : Bench) (s : σ)

/-- The first state of a run. -/
def firstState : State :=
  .start n.suiteId cases.length n.firstSeq b.now

/-- A run that has not done anything yet. -/
def unopened : Progress σ :=
  ⟨b, .empty, firstState n cases b, s, [.changed (firstState n cases b)]⟩

/-- The moves a run tries, each from where the run is when it tries it. -/
def moves : List (Progress σ × Stage) :=
  [(unopened n cases b s, .preparing),
    ((unopened n cases b s).advance o .preparing, .running),
    ((casesRun o plan device n cases b s).2, .reporting),
    ({ reporting o plan device n cases b s with
        outbox := (finalFlush o plan device n cases b s).2.1
        store := (finalFlush o plan device n cases b s).2.2 }, .done)]

theorem recounts_opened : ∃ later, Recounts o cases (firstState n cases b) s later
    (Progress.opened o n cases.length b s) := by
  have hstart : Recounts o cases (firstState n cases b) s [] (unopened n cases b s) :=
    ⟨rfl, .singleton _, rfl, rfl⟩
  let preparing := (unopened n cases b s).advance o .preparing
  obtain ⟨early, hpreparing⟩ : ∃ later,
      Recounts o cases (firstState n cases b) s later preparing := hstart.advance rfl nofun
  have hrunning : ∃ later, Recounts o cases (firstState n cases b) s later
      (preparing.advance o .running) := hpreparing.advance rfl nofun
  exact hrunning

theorem progressOf_midway {k : Nat} (hk : k ≤ cases.length) :
    progressOf (midway o plan device n cases b s k).state = (.running, k, cases.length) := by
  have hprogress := progressOf_runCases_opened o plan device n cases.length (cases.take k) b s
  rwa [List.length_take_of_le hk] at hprogress

theorem recounts_midway (k : Nat) : ∃ later, Recounts o cases (firstState n cases b) s later
    (midway o plan device n cases b s k) := by
  refine midway_le_induction o plan device n b s
    (P := fun p => ∃ later, Recounts o cases (firstState n cases b) s later p)
    (fun k c hc hmidway => ?_) (i := 0) (recounts_opened o n cases b s) (Nat.zero_le k)
  obtain ⟨later, hmidway⟩ := hmidway
  have hk : k < cases.length := (List.getElem?_eq_some_iff.1 hc).1
  have hprogress := progressOf_midway o plan device n cases b s (Nat.le_of_lt hk)
  simp only [progressOf, Prod.mk.injEq] at hprogress
  exact hmidway.runCase plan device hprogress.1 hprogress.2.1 hc

theorem recounts_reporting : ∃ later, Recounts o cases (firstState n cases b) s later
    (reporting o plan device n cases b s) := by
  obtain ⟨later, hran⟩ := recounts_midway o plan device n cases b s cases.length
  rw [midway_of_length_le o plan device n cases b s (Nat.le_refl _)] at hran
  have hprogress := progressOf_casesRun o plan device n cases b s
  simp only [progressOf, Prod.mk.injEq] at hprogress
  exact hran.advance (canGoTo_reporting o plan device n cases b s) fun _ => hprogress.2.1

/-- The last state of a run. -/
def lastState : State :=
  let p := reporting o plan device n cases b s
  { p.state with stage := .done, current := none }.touch p.now

theorem updates_lastState :
    Update cases (reporting o plan device n cases b s).state
      (lastState o plan device n cases b s) :=
  .moved _ (canGoTo_done o plan device n cases b s) fun h => absurd h (by decide)

/-- The flush leaves the journal alone, and the last state goes to the store that
the flush left. -/
theorem progress_runSuite_done : (runSuite o plan device n cases b s).progress =
    (({ reporting o plan device n cases b s with
      outbox := (finalFlush o plan device n cases b s).2.1
      store := (finalFlush o plan device n cases b s).2.2 } : Progress σ).setState
        (lastState o plan device n cases b s)).record o := by
  rw [progress_runSuite, Progress.advance_of_canGoTo]
  · rfl
  · exact canGoTo_done o plan device n cases b s

/-- The journal of a whole run is that of its states up to the last one. -/
theorem journal_runSuite {later : List State}
    (h : Recounts o cases (firstState n cases b) s later (reporting o plan device n cases b s)) :
    (runSuite o plan device n cases b s).progress.journal =
      journalOf (firstState n cases b) (later ++ [lastState o plan device n cases b s]) := by
  rw [progress_runSuite_done, journalOf_concat, ← h.journal]
  simp [State.sequel, lastState, State.touch]

end Suite

/-! ## Phases -/

/-- The phases that calls make of the case of an index. -/
def phasesAt (index : Nat) (cs : List (Nat × Phase)) : List Phase :=
  cs.filterMap fun call => if call.1 = index then some call.2 else none

/-- The phases in which states name the case of an index. -/
def phasesIn (index : Nat) (history : List State) : List Phase :=
  history.filterMap fun s => s.current.bind fun t =>
    if t.index = index then some t.phase else none

theorem phasesAt_map (index i : Nat) (phases : List Phase) :
    phasesAt index (phases.map (i, ·)) = if i = index then phases else [] := by
  by_cases h : i = index <;> simp [phasesAt, h]

theorem phasesAt_append (index : Nat) (cs ds : List (Nat × Phase)) :
    phasesAt index (cs ++ ds) = phasesAt index cs ++ phasesAt index ds :=
  List.filterMap_append

theorem phasesAt_callsOf_of_lt {index i : Nat} (h : index < i) (ts : List Turn) :
    phasesAt index (callsOf i ts) = [] := by
  induction ts generalizing i with
  | nil => rfl
  | cons t ts ih =>
      rw [callsOf, phasesAt_append, phasesAt_map, if_neg (Nat.ne_of_gt h),
        ih (Nat.lt_succ_of_lt h), List.append_nil]

theorem phasesAt_callsOf (i m : Nat) (ts : List Turn) :
    phasesAt (i + m) (callsOf i ts) = (ts[m]?.map (·.phases)).getD [] := by
  induction ts generalizing i m with
  | nil => rfl
  | cons t ts ih =>
      rw [callsOf, phasesAt_append, phasesAt_map]
      cases m with
      | zero =>
          rw [Nat.add_zero, if_pos rfl, phasesAt_callsOf_of_lt (Nat.lt_succ_self i),
            List.append_nil]
          rfl
      | succ m =>
          rw [if_neg (by omega), ← Nat.succ_add_eq_add_succ, ih]
          rfl

theorem phasesIn_eq {first : State} (hfirst : first.current = none) (later : List State)
    (index : Nat) : phasesIn index (first :: later) =
      phasesAt index (calls (journalOf first later)) := by
  rw [calls_journalOf, phasesIn, phasesAt, List.filterMap_filterMap,
    List.filterMap_cons_none (by rw [hfirst]; rfl)]
  refine List.filterMap_congr fun s _ => ?_
  cases s.current <;> rfl

/-! ## The chronicle of a run -/

/-- How the states of a suite of cases follow one another. -/
structure Chronicle (cases : List TestCase) (history : List State) : Prop where
  begins : ∃ s, history.head? = some s ∧ s.stage = .idle ∧ s.completed = 0
  ends : ∃ s, history.getLast? = some s ∧ s.stage = .done
  stages : history.IsChain fun s t => t.stage = s.stage ∨ s.stage.next? = some t.stage
  numbered : (history.map (·.seq)).Pairwise (· < ·)
  counted : history.IsChain fun s t => t.completed = s.completed ∨
    t.completed = s.completed + 1 ∧ s.stage = .running ∧ t.stage = .running ∧
      ∃ c, cases[s.completed]? = some c ∧
        s.current = some ⟨s.completed, c.id.text, .cleanup⟩
  consistent : ∀ s ∈ history, s.Consistent cases
  phases : ∀ k < cases.length, phasesIn k history = [.cleanup] ∨
    phasesIn k history = [.prepare, .cleanup] ∨
    phasesIn k history = [.prepare, .execute, .cleanup]

section Whole

variable (o : Outlets σ) (plan : Plan) (device : Profile) (n : Naming)
  (cases : List TestCase) (b : Bench) (s : σ)

/-- The states of a run name every case in the phases of its turn. -/
theorem phasesIn_runSuite {k : Nat} (hk : k < cases.length) :
    let phases := phasesIn k (states (runSuite o plan device n cases b s).progress.journal)
    phases = [.cleanup] ∨ phases = [.prepare, .cleanup] ∨
      phases = [.prepare, .execute, .cleanup] := by
  intro phases
  obtain ⟨later, hreporting⟩ := recounts_reporting o plan device n cases b s
  have hphases : phases = phasesAt k (callsOf 0 (turns plan device cases b)) := by
    simp only [phases]
    rw [← calls_runSuite o plan device n cases b s,
      journal_runSuite o plan device n cases b s hreporting, states_journalOf]
    exact phasesIn_eq rfl _ k
  have hlength : k < (turns plan device cases b).length := by
    rwa [← List.length_map (·.testCase), testCase_turns]
  have hturn := phasesAt_callsOf 0 k (turns plan device cases b)
  rw [Nat.zero_add, List.getElem?_eq_getElem hlength] at hturn
  rw [hphases, hturn]
  exact (lawful_of_mem_turns (List.getElem_mem hlength)).shape

theorem state_runSuite : (runSuite o plan device n cases b s).progress.state =
    lastState o plan device n cases b s := by
  rw [progress_runSuite_done]
  rfl

theorem states_runSuite {later : List State}
    (h : Recounts o cases (firstState n cases b) s later (reporting o plan device n cases b s)) :
    states (runSuite o plan device n cases b s).progress.journal =
      firstState n cases b :: (later ++ [lastState o plan device n cases b s]) := by
  rw [journal_runSuite o plan device n cases b s h, states_journalOf]

theorem chronicle_runSuite :
    Chronicle cases (states (runSuite o plan device n cases b s).progress.journal) := by
  have hphases := @phasesIn_runSuite σ o plan device n cases b s
  obtain ⟨later, hreporting⟩ := recounts_reporting o plan device n cases b s
  have hupdates := hreporting.updates_concat (updates_lastState o plan device n cases b s)
  rw [states_runSuite o plan device n cases b s hreporting] at hphases ⊢
  refine ⟨?_, ?_, ?_, ?_, ?_, ?_, fun k hk => hphases hk⟩
  · exact ⟨_, rfl, rfl, rfl⟩
  · exact ⟨_, Recounts.last_concat _, rfl⟩
  · exact hupdates.imp fun _ _ h => h.stage_eq
  · refine List.IsChain.pairwise ((List.isChain_map _).2 (hupdates.imp fun u t h => ?_))
    rw [h.seq_eq]
    exact Nat.lt_succ_self _
  · exact hupdates.imp fun _ _ h => h.completed_eq
  · exact hupdates.induction _ _ (fun u t h hu => h.consistent hu)
      fun _ => State.consistent_start cases n.suiteId n.firstSeq b.now

theorem goTo_of_mem_moves {m : Progress σ × Stage} (h : m ∈ moves o plan device n cases b s) :
    ∃ t, m.1.state.goTo m.2 m.1.now = .ok t := by
  have hgo : m.1.state.stage.canGoTo m.2 = true := by
    simp only [moves, List.mem_cons, List.not_mem_nil, or_false] at h
    rcases h with rfl | rfl | rfl | rfl
    · rfl
    · rfl
    · exact canGoTo_reporting o plan device n cases b s
    · exact canGoTo_done o plan device n cases b s
  exact ⟨_, by rw [State.goTo, if_pos hgo]⟩

end Whole

/-- The states of a run go through the stages one by one, number themselves,
count every case at the end of its cleanup and name a test only while its turn
runs.  No move is refused, and what is written down are states of the run, the
last of them included. -/
theorem runSuite_chronicle (o : Outlets σ) (plan : Plan) (device : Profile)
    (n : Naming) (cases : List TestCase) (b : Bench) (s : σ) :
    let r := runSuite o plan device n cases b s
    let history := states r.progress.journal
    let written := snapshots r.progress.journal
    Chronicle cases history ∧ history.getLast? = some r.progress.state ∧
      (∀ m ∈ moves o plan device n cases b s, ∃ t, m.1.state.goTo m.2 m.1.now = .ok t) ∧
      written.Sublist history ∧
      ∃ earlier, written = earlier ++ [r.progress.state] ∧
        (reporting o plan device n cases b s).store =
          earlier.foldl (fun t u => o.recordState u t) s ∧
        r.progress.store =
          o.recordState r.progress.state (finalFlush o plan device n cases b s).2.2 := by
  intro r history written
  obtain ⟨later, hreporting⟩ := recounts_reporting o plan device n cases b s
  have hstate : r.progress.state = _ := state_runSuite o plan device n cases b s
  have hhistory : history = _ := states_runSuite o plan device n cases b s hreporting
  have hwritten : written = later.filter (·.current.isNone) ++ [r.progress.state] := by
    simp only [written, r, journal_runSuite o plan device n cases b s hreporting,
      snapshots_journalOf, List.filter_append]
    rw [hstate]
    rfl
  refine ⟨chronicle_runSuite o plan device n cases b s, ?_,
    fun m hm => goTo_of_mem_moves o plan device n cases b s hm, ?_, ?_⟩
  · rw [hhistory, hstate]
    exact Recounts.last_concat _
  · rw [hwritten, hhistory, hstate]
    exact ((List.filter_sublist).append (.refl _)).cons _
  · refine ⟨_, hwritten, hreporting.store, ?_⟩
    simp only [r, progress_runSuite_done]
    rfl

end Compliance.Run
