import Compliance.Proofs.Cli.Conservation
import Compliance.Proofs.Cli.Selections
import Compliance.Proofs.Run.Verdicts

/-!
# Runs of registry checks

Whatever the suite and the device, and whenever signals come, the checks of the
registry come to verdicts on the device and to no error.
-/

namespace Compliance.Cli

open Compliance.Check (Bench CancelToken TestCase)
open Compliance.Device (Script)
open Compliance.Files (Tree)
open Compliance.Run (SuiteRun TestResult Vacant Verdict midway)
open Compliance.Suite (Entry SetLimit)

namespace RunCommand

variable (c : RunCommand) (s : Setting) (chosen : Selection Script) (cases : List TestCase)
  (token : CancelToken) (t : Tree)

/-- The bench of a run that signals may have cancelled before it begins. -/
def benchUnder : Bench :=
  { benchOf s chosen.device with token := token }

/-- A run with such a bench. -/
def executeUnder : SuiteRun Tree :=
  Run.runSuite (outletsIn c.out chosen.config.reportDir)
    (planOf chosen.config chosen.device) chosen.device.profile
    ⟨s.suiteId, s.batchId, 0⟩ cases (benchUnder s chosen token) t

/-- The bench when so many cases of the run are over. -/
def benchAfter (k : Nat) : Bench :=
  (midway (outletsIn c.out chosen.config.reportDir)
    (planOf chosen.config chosen.device) chosen.device.profile
    ⟨s.suiteId, s.batchId, 0⟩ cases (benchUnder s chosen token) t k).bench

theorem executeUnder_fresh :
    c.executeUnder s chosen cases .fresh t = c.execute s chosen cases t := rfl

theorem vacant_benchUnder : Vacant chosen.device (benchUnder s chosen token) :=
  ⟨⟨rfl, rfl, rfl, rfl⟩, rfl⟩

end RunCommand

theorem ids_of_signalled {cases signalled : List TestCase}
    (h : List.Forall₂ TestCase.Signalled cases signalled) :
    signalled.map (·.id) = cases.map (·.id) :=
  map_eq_map_of_forall₂ h fun _ _ hsignals => hsignals.id

section Signals

variable {c : RunCommand} {s : Setting} {chosen : Selection Script}
  {cases signalled : List TestCase} [SetLimit] (h : Prepared c s chosen cases)
  (hsignalled : List.Forall₂ TestCase.Signalled cases signalled)

include h hsignalled

theorem Prepared.exists_entry {i : Nat} {d' : TestCase} (hd' : signalled[i]? = some d') :
    ∃ e d, chosen.entries[i]? = some e ∧ cases[i]? = some d ∧ e.toCase = .ok d ∧
      d.Signalled d' := by
  obtain ⟨d, hd, hsignals⟩ := exists_of_forall₂ hsignalled hd'
  obtain ⟨e, he, hcase⟩ := exists_of_forall₂ (forall₂_of_mapM h.cases) hd
  exact ⟨e, d, he, hd, hcase, hsignals⟩

theorem Prepared.borrows : ∀ d' ∈ signalled, d'.Borrows := by
  intro d' hd'
  obtain ⟨i, hi⟩ := List.mem_iff_getElem?.1 hd'
  obtain ⟨e, d, -, -, hcase, hsignals⟩ := h.exists_entry hsignalled hi
  exact (Entry.toCase_borrows hcase).signalled hsignals

theorem Prepared.orderly (hfew : chosen.device.events.length < 2 ^ 64) :
    ∀ d' ∈ signalled,
      d'.Orderly chosen.device (planOf chosen.config chosen.device).timeouts.test := by
  intro d' hd'
  obtain ⟨i, hi⟩ := List.mem_iff_getElem?.1 hd'
  obtain ⟨e, d, -, -, hcase, hsignals⟩ := h.exists_entry hsignalled hi
  obtain ⟨v, hv⟩ := h.device
  have hlimit : (planOf chosen.config chosen.device).timeouts.test < 2 ^ 64 :=
    Nat.lt_of_le_of_lt h.valid.test (by decide)
  exact (Entry.toCase_orderly hcase (Script.fits_of_ofJson? hv hfew) hlimit).signalled hsignals

variable (hfew : chosen.device.events.length < 2 ^ 64) (token : CancelToken) (t : Tree)

include hfew

theorem Prepared.verdict {i : Nat} {r : TestResult}
    (hr : (c.executeUnder s chosen signalled token t).summary.results[i]? = some r) :
    ∃ d, cases[i]? = some d ∧ r.id = d.id ∧ Verdict chosen.device.profile d r := by
  obtain ⟨d', hd', hid, hverdict⟩ := Run.verdict_of_result _ _ _ t
    (h.orderly hsignalled hfew) (RunCommand.vacant_benchUnder s chosen token) hr
  obtain ⟨e, d, -, hd, -, hsignals⟩ := h.exists_entry hsignalled hd'
  refine ⟨d, hd, hid.trans hsignals.id, ?_⟩
  exact hverdict.congr hsignals.requires

theorem Prepared.exit_ne :
    (c.executeUnder s chosen signalled token t).summary.exit.value ≠ 20 := by
  apply Run.exit_ne_of_results
  intro r hr
  obtain ⟨i, hi⟩ := List.mem_iff_getElem?.1 hr
  obtain ⟨d, -, -, hverdict⟩ := h.verdict hsignalled hfew token t hi
  exact hverdict.status_ne_error

end Signals

theorem RunCommand.exit_perform [SetLimit] {c : RunCommand} {s : Setting}
    {chosen : Selection Script} {cases : List TestCase} (h : c.prepare s = .ok (chosen, cases)) :
    (c.perform s).exit = match (s.tree.createDirectories c.out).2 with
      | .error _ => 40
      | .ok () => (c.execute s chosen cases (c.made s)).summary.exit.value := by
  unfold perform made
  rw [h]
  cases s.tree.createDirectories c.out with
  | mk t answer => cases answer <;> rfl

/-- Whatever the suite and the device, and whenever signals come, a run of
registry checks gives every check a verdict on the device and leaves the device
free after each; it never exits as one with errors.  The events of a device file
are counted in a machine word. -/
theorem RunCommand.executeUnder_verdicts [SetLimit] (c : RunCommand) (s : Setting)
    (chosen : Selection Script) (cases : List TestCase)
    (hprepare : c.prepare s = .ok (chosen, cases))
    (hfew : chosen.device.events.length < 2 ^ 64) (signalled : List TestCase)
    (hsignalled : List.Forall₂ TestCase.Signalled cases signalled) (token : CancelToken)
    (t : Tree) :
    let run := c.executeUnder s chosen signalled token t
    run.summary.results.map (·.id) = cases.map (·.id) ∧
    (∀ (i : Nat) (r : TestResult), run.summary.results[i]? = some r →
      ∃ d, cases[i]? = some d ∧ r.id = d.id ∧ Verdict chosen.device.profile d r) ∧
    (∀ k, (c.benchAfter s chosen signalled token t k).platform.openHandles = 0) ∧
    run.summary.exitCode ≠ 20 ∧ run.summary.exit.value ≠ 20 ∧ (c.perform s).exit ≠ 20 := by
  intro run
  have hprepared := c.prepared_of_prepare hprepare
  have hexit := hprepared.exit_ne hsignalled hfew token t
  refine ⟨?_, fun i r => hprepared.verdict hsignalled hfew token t, ?_, ?_, hexit, ?_⟩
  · exact (Run.ids_runSuite ..).trans (ids_of_signalled hsignalled)
  · intro k
    exact (Run.vacant_midway _ _ _ t (hprepared.borrows hsignalled)
      (vacant_benchUnder s chosen token) k).openHandles
  · intro hcode
    exact hexit (Int.ofNat.inj ((Run.exitCode_runSuite ..).symm.trans hcode))
  · rw [exit_perform hprepare]
    have hplain : List.Forall₂ TestCase.Signalled cases cases :=
      List.forall₂_same.2 fun d _ => .refl d
    cases (s.tree.createDirectories c.out).2 with
    | error e => simp
    | ok =>
        simp only [← executeUnder_fresh]
        exact hprepared.exit_ne hplain hfew .fresh (c.made s)

/-- The search, cancelled when it has waited for a while. -/
def searchCutOff : TestCase :=
  { searchCase with
    execute := .look fun v =>
      if v.hasSession then
        .send (Check.ServiceQuery.request .all)
          (.sleep 20 (.cancel (.gather (Check.Discovery.isSettled ⟨.all, .none, [], []⟩)
            (Check.Discovery.conclude ⟨.all, .none, [], []⟩))))
      else .fail ⟨.platform, "discovery session not open"⟩ }

theorem signalled_searchCutOff : searchCase.Signalled searchCutOff where
  id := rfl
  requires := rfl
  prepare := .same _
  execute := by
    refine .look fun v => ?_
    by_cases hv : v.hasSession = true
    · simp only [hv, ↓reduceIte]
      exact .send _ (.unheard 20 _ _)
    · simp only [hv, Bool.false_eq_true, ↓reduceIte]
      exact .same _
  cleanup := .same _

theorem executeUnder_verdicts_search : ∃ chosen,
    plainRun.prepare (quietSetting searchSuite) = .ok (chosen, [searchCase]) ∧
      chosen.device.events.length < 2 ^ 64 ∧
      List.Forall₂ TestCase.Signalled [searchCase] [searchCutOff] ∧
      let s := quietSetting searchSuite
      let run := plainRun.executeUnder s chosen [searchCutOff] .fresh (plainRun.made s)
      (∃ r, run.summary.results = [r] ∧ r.id = searchCase.id ∧
        Verdict quietScript.profile searchCase r) ∧
      (∀ k, (plainRun.benchAfter s chosen [searchCutOff] .fresh
        (plainRun.made s) k).platform.openHandles = 0) ∧
      run.summary.exitCode ≠ 20 ∧ (plainRun.perform s).exit ≠ 20 := by
  have hconfig : Suite.Config.ofValue (Suite.mergeLayers [Suite.Effective.builtinLayer.value,
      .object [("tests", searchTests)]]) = .ok (searchConfig Suite.defaultReportDir) := rfl
  obtain ⟨e, hprepare⟩ := prepare_quiet layerOfText?_searchSuite hconfig
  have hfew : quietScript.events.length < 2 ^ 64 := by decide
  have hsignalled : List.Forall₂ TestCase.Signalled [searchCase] [searchCutOff] :=
    .cons signalled_searchCutOff .nil
  refine ⟨_, hprepare, hfew, hsignalled, ?_⟩
  obtain ⟨hids, hverdicts, hfree, hcode, -, hexit⟩ := RunCommand.executeUnder_verdicts
    plainRun (quietSetting searchSuite) _ _ hprepare hfew _ hsignalled .fresh
    (plainRun.made (quietSetting searchSuite))
  refine ⟨?_, hfree, hcode, hexit⟩
  obtain ⟨r, hr⟩ := List.length_eq_one_iff.1 ((List.length_map _).symm.trans
    (congrArg List.length hids))
  obtain ⟨d, hd, hid, hverdict⟩ := hverdicts 0 r (by rw [hr]; rfl)
  cases hd
  exact ⟨r, hr, hid, hverdict⟩

end Compliance.Cli
