import Compliance.Proofs.Files.Trees
import Compliance.Proofs.Run.Isolation
import Compliance.Proofs.Run.Saved
import Compliance.Proofs.Run.States

/-!
# The state file while a case is called

A state that names a test goes with a call and is not written down.  So whenever
a case is called, the state file still holds the state from before its turn: it
names no test, and it is not the state of the suite.
-/

namespace Compliance.Run

open Compliance.Check (Bench TestCase)
open Compliance.Device (Profile)
open Compliance.Files (Tree)

/-- The files after states were saved to one path, one after the other. -/
def filesAfter (path : String) (t : Tree) (written : List State) : Tree :=
  written.foldl (fun t s => (s.save t path).1) t

/-- All of the states get to the path. -/
def Lands (path : String) (t : Tree) (written : List State) : Prop :=
  ∀ earlier s, earlier ++ [s] <+: written →
    (s.save (filesAfter path t earlier) path).2 = .ok ()

/-- The state file holds the last state that was saved. -/
theorem Lands.readText {path : String} {t : Tree} {written : List State} {s : State}
    (h : Lands path t written) (hlast : written.getLast? = some s) :
    (filesAfter path t written).readText path = .ok s.toText := by
  obtain ⟨earlier, rfl⟩ := List.getLast?_eq_some_iff.1 hlast
  have hsaved := h earlier s (List.prefix_refl _)
  rw [filesAfter, List.foldl_append, List.foldl_cons, List.foldl_nil]
  exact Tree.readText_of_replaceText (Prod.ext rfl hsaved)

/-- A store that saves every snapshot is that of the files. -/
theorem Recounts.store_eq_filesAfter {o : Outlets Tree} {path : String}
    (ho : ∀ s t, o.recordState s t = (s.save t path).1) {cases : List TestCase}
    {first : State} {t : Tree} {later : List State} {p : Progress Tree}
    (h : Recounts o cases first t later p) :
    p.store = filesAfter path t (snapshots p.journal) := by
  rw [h.store, h.journal, snapshots_journalOf, filesAfter]
  simp only [ho]

/-! ## The journal at a call -/

/-- What comes right before a call is the state that names the test. -/
theorem exists_of_call {first : State} {later : List State} {before after : List Happening}
    {k : Nat} {phase : Phase}
    (h : journalOf first later = before ++ .called k phase :: after) :
    ∃ earlier s rest id, later = earlier ++ s :: rest ∧ s.current = some ⟨k, id, phase⟩ ∧
      before = journalOf first earlier ++ [.changed s] := by
  rw [journalOf] at h
  obtain ⟨x, before, rfl⟩ : ∃ x front, before = x :: front := by
    cases before with
    | nil => simp at h
    | cons x front => exact ⟨x, front, rfl⟩
  rw [List.cons_append, List.cons.injEq] at h
  obtain ⟨rfl, h⟩ := h
  -- every later state puts two happenings in front, so the call is one of these or behind both
  induction later generalizing before with
  | nil => simp at h
  | cons s rest ih =>
      rw [List.flatMap_cons, List.cons_append, List.cons_append, List.nil_append] at h
      rcases before with - | ⟨x, - | ⟨y, before⟩⟩
      · simp at h
      · simp only [List.cons_append, List.nil_append, List.cons.injEq] at h
        obtain ⟨rfl, hcalled, -⟩ := h
        cases hs : s.current with
        | none => simp [State.sequel, hs] at hcalled
        | some t =>
            simp only [State.sequel, hs, Happening.called.injEq] at hcalled
            obtain ⟨rfl, rfl⟩ := hcalled
            exact ⟨[], s, rest, t.testId, rfl, hs, rfl⟩
      · simp only [List.cons_append, List.cons.injEq] at h
        obtain ⟨rfl, rfl, h⟩ := h
        obtain ⟨earlier, u, rest, id, rfl, hu, hbefore⟩ := ih before h
        refine ⟨s :: earlier, u, rest, id, rfl, hu, ?_⟩
        simp only [journalOf, List.cons_append, List.cons.injEq, true_and] at hbefore ⊢
        simp [hbefore]

/-- A state behind others is an update of the last of them. -/
theorem exists_update {cases : List TestCase} {first t : State} {later rest : List State}
    (h : (first :: (later ++ t :: rest)).IsChain (Update cases)) :
    ∃ u, (first :: later).getLast? = some u ∧ (first :: later).IsChain (Update cases) ∧
      Update cases u t := by
  rw [← List.cons_append] at h
  obtain ⟨hbefore, -, hlink⟩ := List.isChain_append.1 h
  have hlast := List.getLast?_eq_some_getLast (List.cons_ne_nil first later)
  exact ⟨_, hlast, hbefore, hlink _ hlast t rfl⟩

/-- The last snapshot tells stage and count of the state, with no test in it. -/
theorem written_of_updates {cases : List TestCase} {first s : State} {later : List State}
    (hfirst : first.stage = .idle) (hupdates : (first :: later).IsChain (Update cases))
    (hlast : (first :: later).getLast? = some s) (hs : s.stage ≠ .idle) :
    ∃ w, (later.filter (·.current.isNone)).getLast? = some w ∧ w.current = none ∧
      w.stage = s.stage ∧ w.completed = s.completed ∧ w.seq ≤ s.seq := by
  induction later using List.reverseRecOn generalizing s with
  | nil =>
      obtain rfl := Option.some.inj hlast
      exact absurd hfirst hs
  | append_singleton later t ih =>
      obtain ⟨u, hu, hbefore, hupdate⟩ := exists_update hupdates
      rw [Recounts.last_concat, Option.some.injEq] at hlast
      subst hlast
      cases hcurrent : t.current with
      | none =>
          refine ⟨t, ?_, hcurrent, rfl, rfl, Nat.le_refl _⟩
          simp [hcurrent]
      | some test =>
          -- a state that names a test is not written down, so the snapshot before it stays last
          have hskip : (later ++ [t]).filter (·.current.isNone) =
              later.filter (·.current.isNone) := by
            simp [hcurrent]
          rw [hskip]
          cases hupdate with
          | moved | completed => simp [State.touch, State.complete] at hcurrent
          | entered phase now hrunning hc =>
              obtain ⟨w, hw, hnone, hstage, hcompleted, hseq⟩ := ih hbefore hu hs
              exact ⟨w, hw, hnone, hstage, hcompleted, Nat.le_succ_of_le hseq⟩

theorem State.toText_ne {s w : State} (hs : s.WellFormed) (hw : w.WellFormed) (h : s ≠ w) :
    s.toText ≠ w.toText := by
  intro heq
  have hread := hs.ofText?_toText
  rw [heq, hw.ofText?_toText] at hread
  exact h (Option.some.inj hread).symm

/-- How memory and state file stand when a case is called. -/
structure Behind (cases : List TestCase) (k : Nat) (phase : Phase)
    (memory written : State) : Prop where
  named : ∃ c, cases[k]? = some c ∧ memory.current = some ⟨k, c.id.text, phase⟩
  unnamed : written.current = none
  stage : memory.stage = .running ∧ written.stage = .running
  completed : memory.completed = k ∧ written.completed = k
  older : written.seq < memory.seq

theorem Behind.ne {cases : List TestCase} {k : Nat} {phase : Phase} {memory written : State}
    (h : Behind cases k phase memory written) : memory ≠ written := by
  rintro rfl
  exact Nat.lt_irrefl _ h.older

section Suite

variable {σ : Type} (o : Outlets σ) (plan : Plan) (device : Profile) (n : Naming)
  (cases : List TestCase) (b : Bench) (s : σ)

theorem exists_behind {before after : List Happening} {k : Nat} {phase : Phase}
    (h : (runSuite o plan device n cases b s).progress.journal =
      before ++ .called k phase :: after) :
    ∃ memory written, (states before).getLast? = some memory ∧
      (snapshots before).getLast? = some written ∧ Behind cases k phase memory written := by
  obtain ⟨later, hreporting⟩ := recounts_reporting o plan device n cases b s
  rw [journal_runSuite o plan device n cases b s hreporting] at h
  have hupdates := hreporting.updates_concat (updates_lastState o plan device n cases b s)
  obtain ⟨earlier, memory, rest, id, hlater, hmemory, rfl⟩ := exists_of_call h
  rw [hlater] at hupdates
  obtain ⟨u, hu, hchain, hupdate⟩ := exists_update hupdates
  have hstates : states (journalOf (firstState n cases b) earlier ++ [.changed memory]) =
      firstState n cases b :: (earlier ++ [memory]) := by
    rw [states, List.filterMap_append, ← states, states_journalOf]
    rfl
  have hsnapshots : snapshots (journalOf (firstState n cases b) earlier ++ [.changed memory]) =
      earlier.filter (·.current.isNone) := by
    rw [snapshots, List.filterMap_append, ← snapshots, snapshots_journalOf]
    simp
  cases hupdate with
  | moved | completed => simp [State.touch, State.complete] at hmemory
  | @entered c entering now hrunning hc =>
      simp only [State.enter, State.touch, Option.some.injEq, CurrentTest.mk.injEq] at hmemory
      obtain ⟨rfl, rfl, rfl⟩ := hmemory
      obtain ⟨w, hw, hnone, hstage, hcompleted, hseq⟩ :=
        written_of_updates rfl hchain hu (by rw [hrunning]; decide)
      refine ⟨_, w, hstates ▸ Recounts.last_concat _, hsnapshots ▸ hw, ?_⟩
      exact ⟨⟨c, hc, rfl⟩, hnone, ⟨hrunning, hstage.trans hrunning⟩,
        ⟨rfl, hcompleted⟩, Nat.lt_succ_of_le hseq⟩

/-- While a case is called, memory names it with its phase, and the state file
holds an older state that names no test. -/
theorem stateFile_behind {o : Outlets Tree} {path : String}
    (ho : ∀ s t, o.recordState s t = (s.save t path).1) (t : Tree)
    {before after : List Happening} {k : Nat} {phase : Phase}
    (hcall : (runSuite o plan device n cases b t).progress.journal =
      before ++ .called k phase :: after)
    (hlands : Lands path t (snapshots before)) :
    (∀ j, (midway o plan device n cases b t j).store =
        filesAfter path t (snapshots (midway o plan device n cases b t j).journal)) ∧
      ∃ memory written, (states before).getLast? = some memory ∧
        (filesAfter path t (snapshots before)).readText path = .ok written.toText ∧
        Behind cases k phase memory written ∧
        (memory.WellFormed → written.WellFormed → written.toText ≠ memory.toText) := by
  refine ⟨fun j => ?_, ?_⟩
  · obtain ⟨later, hmidway⟩ := recounts_midway o plan device n cases b t j
    exact hmidway.store_eq_filesAfter ho
  · obtain ⟨memory, written, hmemory, hwritten, hbehind⟩ :=
      exists_behind o plan device n cases b t hcall
    exact ⟨memory, written, hmemory, hlands.readText hwritten, hbehind,
      fun hm hw => State.toText_ne hw hm hbehind.ne.symm⟩

end Suite

/-! ## A run with a state file -/

/-- Nothing stands in the way of the state file or of its draft. -/
structure Clear (t : Tree) : Prop where
  here : t.here = []
  draft : t.isDirectory ["suite_state.tmp"] = false
  file : t.isDirectory ["suite_state.json"] = false

namespace Clear

/-- A tree at its root has the paths of the empty one. -/
theorem locate {t : Tree} (h : Clear t) {path : String} {l : Files.Location}
    (hl : Tree.empty.locate path = .ok l) : t.locate path = .ok l := by
  have hkept : Tree.Kept (fun _ => True) (fun _ => True) .empty t := by
    refine ⟨h.here, fun _ hno => absurd trivial hno, fun _ hno => absurd trivial hno,
      fun m hm => ?_⟩
    cases m with
    | nil => rfl
    | cons piece rest => simp [Tree.isDirectory, Tree.entry?, Tree.empty] at hm
  exact hkept.locate hl

theorem save {t : Tree} (h : Clear t) (s : State) :
    (s.save t "suite_state.json").2 = .ok () ∧ Clear (s.save t "suite_state.json").1 := by
  have hdraft : Tree.locate .empty (Files.withExtension "suite_state.json" "tmp") =
      .ok ["suite_state.tmp"] := by decide
  have hfile : Tree.locate .empty "suite_state.json" = .ok ["suite_state.json"] := by decide
  have hsaved : s.save t "suite_state.json" = _ :=
    Tree.replaceText_of_locate (h.locate hdraft) (h.locate hfile) h.draft h.file
  have hkeep {l : Files.Location} (hl : t.isDirectory l = false) :
      Tree.isDirectory (((t.put ["suite_state.tmp"] (.file s.toText.toUTF8)).erase
        ["suite_state.tmp"]).put ["suite_state.json"] (.file s.toText.toUTF8)) l = false :=
    Tree.isDirectory_put_file (List.cons_ne_nil _ _) _ _
      (Tree.isDirectory_erase (List.cons_ne_nil _ _) _
        (Tree.isDirectory_put_file (List.cons_ne_nil _ _) t _ hl))
  rw [hsaved]
  exact ⟨rfl, h.here, hkeep h.draft, hkeep h.file⟩

theorem lands {t : Tree} (h : Clear t) (written : List State) :
    Lands "suite_state.json" t written := by
  have hclear (earlier : List State) : Clear (filesAfter "suite_state.json" t earlier) := by
    induction earlier using List.reverseRecOn with
    | nil => exact h
    | append_singleton earlier s ih =>
        rw [filesAfter, List.foldl_append]
        exact (ih.save s).2
  exact fun earlier s _ => ((hclear earlier).save s).1

end Clear

/-- Passes at once. -/
def prompt : TestCase where
  id := ⟨"State", "prompt", by decide, by decide⟩
  requires := .empty
  prepare := .ready
  execute := .pure .pass
  cleanup := .done

/-- Batches go to a directory, states to a file beside it. -/
def inFiles : Outlets Tree where
  collector := .toDirectory "reports"
  recordState s t := (s.save t "suite_state.json").1

def promptRun : SuiteRun Tree :=
  runSuite inFiles ⟨"cts", "arm64", .standard⟩ slowDevice.profile
    ⟨"suite", "batch", 0⟩ [prompt] (benchAt 0 slowDevice) .empty

theorem journal_promptRun : promptRun.progress.journal =
    promptRun.progress.journal.take 8 ++ .called 0 .execute ::
      promptRun.progress.journal.drop 9 := by
  decide +kernel

theorem clear_empty : Clear .empty :=
  ⟨rfl, rfl, rfl⟩

theorem stateFile_behind_prompt :
    let before := promptRun.progress.journal.take 8
    Lands "suite_state.json" .empty (snapshots before) ∧
      ∃ memory written, (states before).getLast? = some memory ∧
        (filesAfter "suite_state.json" .empty (snapshots before)).readText "suite_state.json" =
          .ok written.toText ∧ Behind [prompt] 0 .execute memory written := by
  intro before
  have hlands := clear_empty.lands (snapshots before)
  obtain ⟨-, memory, written, hmemory, hread, hbehind, -⟩ :=
    stateFile_behind ⟨"cts", "arm64", .standard⟩ slowDevice.profile ⟨"suite", "batch", 0⟩
      [prompt] (benchAt 0 slowDevice) (o := inFiles) (fun _ _ => rfl) .empty
      journal_promptRun hlands
  exact ⟨hlands, memory, written, hmemory, hread, hbehind⟩

/-- The state of the suite while the case executes. -/
def promptExecuting : State :=
  ⟨1, "cts-harness/suite_state@1", "suite", .running, .ofMillis 0, .ofMillis 0,
    some ⟨0, "State#prompt", .execute⟩, 0, 1, 4⟩

/-- What the state file holds meanwhile. -/
def promptSaved : State :=
  { promptExecuting with current := none, seq := 2 }

theorem toText_promptSaved : promptSaved.toText ≠ promptExecuting.toText := by
  have hvalid : (Time.Timestamp.ofMillis 0).Valid := ⟨by decide, by decide, by decide⟩
  refine State.toText_ne ?_ ?_ (by decide)
  · exact ⟨by decide, hvalid, hvalid, by decide, by decide, by decide, by decide⟩
  · exact ⟨by decide, hvalid, hvalid, by decide, by decide, by decide, by decide⟩

/-- All snapshots land, and yet there is a call at which the state file does not
hold the state of the suite. -/
theorem not_stateFile_follows :
    Lands "suite_state.json" .empty (snapshots promptRun.progress.journal) ∧
      ¬ ∀ before k phase after memory,
        promptRun.progress.journal = before ++ .called k phase :: after →
        (states before).getLast? = some memory →
        (filesAfter "suite_state.json" .empty (snapshots before)).readText
          "suite_state.json" = .ok memory.toText := by
  refine ⟨clear_empty.lands _, fun hfollows => ?_⟩
  have hmemory : (states (promptRun.progress.journal.take 8)).getLast? =
      some promptExecuting := by decide +kernel
  have hwritten : (snapshots (promptRun.progress.journal.take 8)).getLast? =
      some promptSaved := by decide +kernel
  have hread := (clear_empty.lands _).readText hwritten
  rw [hfollows _ _ _ _ _ journal_promptRun hmemory] at hread
  exact toText_promptSaved (Except.ok.inj hread).symm

end Compliance.Run
