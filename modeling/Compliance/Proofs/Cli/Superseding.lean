import Compliance.Proofs.Cli.Aftermath
import Compliance.Proofs.Cli.Rewriting

/-!
# Runs into a used output directory

The pending reports in an output directory are those of its latest run.  A run neither
delivers nor keeps what an earlier one left there.
-/

namespace Compliance.Cli

open Compliance.Check (TestCase)
open Compliance.Device (Script)
open Compliance.Files (Location Tree)
open Compliance.Report (Outbox)
open Compliance.Suite (SetLimit)
open Compliance.Time (Timestamp)

variable {t t' : Tree} {out : String} {home : Location} {earlier o : Outbox}

/-! ## A run after another -/

/-- With these logs in its outbox at the end, a run leaves no pending reports, or its
own, or it leaves the earlier ones because it cannot save its own.  Only its own logs
are in a batch afterwards that were in none. -/
structure Superseded (earlier o : Outbox) (out : String) (t t' : Tree) : Prop where
  allOrNone : o.unsent = [] ∨ o.unsent = o.logs
  gone : o.unsent = [] → t'.exists? (Artifact.path .pending out) = false
  replaced : o.unsent ≠ [] → Outbox.load t' (Artifact.path .pending out) = .ok o ∨
    Outbox.load t' (Artifact.path .pending out) = .ok earlier ∧
      (o.save t' (Artifact.path .pending out)).2 = .error .isADirectory
  batches : ∀ log, InBatch t' log ↔ InBatch t log ∨ o.unsent = [] ∧ log ∈ o.logs

section Run

variable {c : RunCommand} {s : Setting} {chosen : Selection Script} {cases : List TestCase}
  [SetLimit]

theorem superseded_settle
    (hload : Outbox.load (c.made s) (Artifact.path .pending c.out) = .ok earlier)
    (hf : Fresh (c.made s) s.batchId) (h : c.prepare s = .ok (chosen, cases))
    (htime : (c.execute s chosen cases (c.made s)).progress.bench.clock ≤ Timestamp.lastMillis) :
    Superseded earlier (c.execute s chosen cases (c.made s)).progress.outbox c.out (c.made s)
      (c.settle chosen (c.execute s chosen cases (c.made s))) := by
  obtain ⟨home, content, hp, hd, he⟩ := place_of_load hload
  have hfile := Tree.isDirectory_of_file he
  have hoccupied : Tree.entry? (c.made s) (home ++ [Artifact.fileName .pending]) = none →
      home ++ [Artifact.fileName .pending] ∉
        s.tree.way (Files.join c.out chosen.config.reportDir) := by
    rw [he]
    intro hnone
    cases hnone
  rw [RunCommand.bench_execute] at htime
  obtain ⟨hgone, hkept⟩ := pending_settle h hf.plain htime hp hd hfile hoccupied
  have hlast : Standing (c.made s) (c.settle chosen (c.execute s chosen cases (c.made s))) :=
    standing_settle_execute hf.plain
  have hp' := hlast.place hp
  have hd' := hlast.directory home hd
  obtain ⟨hlogs, hcases⟩ := RunCommand.flushing_cases c s chosen cases
  rw [RunCommand.outbox_execute]
  constructor
  case allOrNone =>
    rcases hcases with hnil | hsame
    · exact Or.inl hnil
    · right
      rw [hsame]
      exact Outbox.unsent_of_waiting (RunCommand.tallied h).waiting
  case gone =>
    intro hnil
    rw [Artifact.exists?_path hp' hd', hgone hnil]
    rfl
  case replaced =>
    intro hne
    rcases hkept hne with hload' | ⟨hblocked, hsame⟩
    · exact Or.inl hload'
    · right
      rw [load_congr hp hd hp' hd' hsame,
        save_of_blocked hp' hd' ((standing_settled c s chosen cases).directory _ hblocked)]
      exact ⟨hload, rfl⟩
  case batches =>
    intro log
    rw [hlogs]
    exact inBatch_settle h hf htime log

/-- A run that is refused leaves the files of an output directory as they are.  Any
other takes the place of the run whose reports wait there: they are in a batch
afterwards only if they were before or are among its own, and they go on waiting only if
it cannot save the logs that it has left itself. -/
theorem pending_superseded
    (hload : Outbox.load s.tree (Artifact.path .pending c.out) = .ok earlier)
    (hf : Fresh s.tree s.batchId) :
    (∀ e, c.prepare s = .error e → (c.perform s).tree = s.tree) ∧
      ∀ chosen cases, c.prepare s = .ok (chosen, cases) →
        let run := c.execute s chosen cases s.tree
        run.progress.bench.clock ≤ Timestamp.lastMillis →
          Superseded earlier run.progress.outbox c.out s.tree (c.perform s).tree := by
  constructor
  · intro e he
    simp only [RunCommand.perform, he]
    rfl
  · intro chosen cases h run htime
    obtain ⟨home, content, hp, hd, -⟩ := place_of_load hload
    have hcreated := Tree.createDirectories_of_place hp hd
    have hmade : c.made s = s.tree := congrArg Prod.fst hcreated
    rw [RunCommand.tree_perform h (congrArg Prod.snd hcreated)]
    have hsuperseded := @superseded_settle earlier c s chosen cases _
    rw [hmade] at hsuperseded ⊢
    exact hsuperseded hload hf h htime

end Run

/-! ## A search where reports wait -/

/-- The search suite, and one log of another device waits in its output directory. -/
def reusedSetting : Setting :=
  ⟨⟨[(["device.toml"], .file quietDevice.toUTF8), (["out"], .directory),
    (["out", "pending_reports.json"], .file mixedOutbox.toText.toUTF8),
    (["suite.toml"], .file searchSuite.toUTF8)], []⟩, none, 0, "suite", "second"⟩

theorem place_reusedSetting : reusedSetting.tree.place "out" = .ok ["out"] := rfl

theorem load_reusedSetting :
    Outbox.load reusedSetting.tree (Artifact.path .pending "out") = .ok mixedOutbox :=
  load_pending place_reusedSetting rfl rfl ofText?_mixedOutbox

theorem fresh_reusedSetting : Fresh reusedSetting.tree reusedSetting.batchId :=
  fresh_of_names (by decide) [["device.toml"], ["out"], ["out", "pending_reports.json"],
    ["suite.toml"]] rfl (by decide)

theorem prepare_reusedSetting : ∃ e, plainRun.prepare reusedSetting =
    .ok (searched e Suite.defaultReportDir, [searchCase]) :=
  prepare_search rfl rfl (Tree.readText_of_locate (l := ["device.toml"]) rfl rfl)
    layerOfText?_searchSuite rfl

theorem pending_superseded_search : ∃ chosen cases,
    plainRun.prepare reusedSetting = .ok (chosen, cases) ∧
      Superseded mixedOutbox
        (plainRun.execute reusedSetting chosen cases reusedSetting.tree).progress.outbox "out"
        reusedSetting.tree (plainRun.perform reusedSetting).tree := by
  obtain ⟨e, hprepare⟩ := prepare_reusedSetting
  have hmade : plainRun.made reusedSetting = reusedSetting.tree := rfl
  have htime := clock_search (s := reusedSetting) rfl Suite.defaultReportDir e
  rw [← RunCommand.bench_execute, hmade] at htime
  have hlaw := pending_superseded (c := plainRun) load_reusedSetting fresh_reusedSetting
  exact ⟨_, _, hprepare, hlaw.2 _ _ hprepare htime⟩

/-- The log that waited is in no place after the run. -/
theorem pending_lost : ∃ log ∈ waitingIn reusedSetting.tree plainRun.out,
    log ∉ waitingIn (plainRun.perform reusedSetting).tree plainRun.out ∧
      ¬ InBatch (plainRun.perform reusedSetting).tree log := by
  obtain ⟨e, hprepare⟩ := prepare_reusedSetting
  have hplain := fresh_reusedSetting.plain
  have hwritable : Writable (plainRun.made reusedSetting) plainRun.out ["out"] :=
    ⟨rfl, rfl, forall_carriers.2 ⟨rfl, rfl, rfl⟩⟩
  have hapart : Apart reusedSetting.tree plainRun.out ["out"] Suite.defaultReportDir :=
    apart_reports rfl
  have hforeign : ∀ log ∈ (plainRun.beforeFlush reusedSetting
      (searched e Suite.defaultReportDir) [searchCase]).outbox.logs, log.key.abi = "arm64" :=
    fun log hlog => (RunCommand.tallied hprepare).abi_eq hlog
  have hwaiting : waitingIn reusedSetting.tree plainRun.out =
      [.start ⟨"a", "b", "c"⟩ mixedTime] := by
    have hload : Outbox.load reusedSetting.tree (Artifact.path .pending plainRun.out) = _ :=
      load_reusedSetting
    rw [waitingIn, hload]
    rfl
  have hnone : ¬ InBatch (plainRun.made reusedSetting)
      (.start ⟨"a", "b", "c"⟩ mixedTime) :=
    not_inBatch_of_names [["device.toml"], ["out"], ["out", "pending_reports.json"],
      ["suite.toml"]] rfl (by decide)
  have hperform := RunCommand.tree_perform hprepare
    (congrArg Prod.snd (Tree.createDirectories_of_place place_reusedSetting rfl))
  rw [hwaiting, hperform]
  refine ⟨_, List.mem_singleton_self _, ?_, ?_⟩
  · rw [waitingIn_settle hprepare hplain (clock_search rfl _ e) hwritable hapart]
    intro hlog
    have hown := (Outbox.unsent_sublist _).subset hlog
    rw [(RunCommand.flushing_cases ..).1] at hown
    exact absurd (hforeign _ hown) (by decide)
  · rw [inBatch_settle hprepare fresh_reusedSetting (clock_search rfl _ e)]
    rintro (hin | ⟨-, hlog⟩)
    · exact hnone hin
    · exact absurd (hforeign _ hlog) (by decide)

end Compliance.Cli
