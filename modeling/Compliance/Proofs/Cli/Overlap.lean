import Compliance.Proofs.Cli.Aftermath

/-!
# Report directories in the way

The way to a report directory may lead through the place of an artifact, though
the directory is none itself.  Then a directory takes that place, the artifact
can be neither written nor removed, and the account of the logs is lost.
-/

namespace Compliance.Cli

open Compliance.Check (TestCase)
open Compliance.Device (Script)
open Compliance.Files (Location Tree)
open Compliance.Report (Batch Collector Log Outbox)
open Compliance.Suite (Config Effective SetLimit mergeLayers)

variable {t t' : Tree} {out : String} {home : Location} {ids : List String}
  {logs : List Log}

/-! ## Directories stay -/

/-- What a collector does once its directory is made leaves all directories. -/
theorem standing_accept (directory : String) (b : Batch) (t : Tree) :
    Standing (t.createDirectories directory).1
      ((Collector.toDirectory directory).accept b t).2 := by
  simp only [Collector.toDirectory]
  split
  · rename_i u e hc
    rw [hc]
    exact .refl u
  · rename_i u hc
    rw [hc]
    have hreplaced : Standing u (u.replaceText (Report.batchTemporary directory b.batchId)
        (Report.batchPath directory b.batchId) b.toText).1 :=
      (Tree.kept_replaceText (fun _ _ => trivial) fun _ _ _ => trivial).mono (fun _ h => h)
        fun _ h => h.elim
    split
    · rename_i v e hr
      rw [hr] at hreplaced
      exact hreplaced
    · rename_i v hr
      rw [hr] at hreplaced
      exact hreplaced

/-- With a directory in the place of the pending reports there is no account of
the logs. -/
theorem not_conserved_of_directory (hp : t.place out = .ok home)
    (hd : t.isDirectory home = true)
    (hb : t.isDirectory (home ++ [Artifact.fileName .pending]) = true) :
    ¬ Conserved t out ids logs := by
  intro h
  have hl := Artifact.locate_path hp hd .pending
  have he := Tree.isDirectory_iff.1 hb
  have hread : t.readText (Artifact.path .pending out) = .error .isADirectory := by
    simp only [Tree.readText, Tree.read, hl, he, bind, Except.bind]
    rfl
  have hnone : waitingIn t out = [] := by
    simp only [waitingIn, Outbox.load, hread]
  have hexists : t.exists? (Artifact.path .pending out) = true := by
    rw [Artifact.exists?_path hp hd, he]
    rfl
  obtain ⟨log, -, hk⟩ := h.pending.1 hexists
  simp [Keeps, hnone] at hk

variable {c : RunCommand} {s : Setting} {chosen : Selection Script} {cases : List TestCase}

/-- A run makes the directories on the way to its reports, even where the pending
reports belong, and nobody can keep account of its logs any more. -/
theorem Begins.not_conserved [SetLimit] (h : Begins c s chosen cases home)
    (hlogs : (c.beforeFlush s chosen cases).outbox.unsent ≠ [])
    (hfree : ∀ l ∈ s.tree.way (Files.join c.out chosen.config.reportDir),
      (c.made s).file? l = none ∧ ¬ OwnName l)
    (hway : home ++ [Artifact.fileName .pending] ∈
      s.tree.way (Files.join c.out chosen.config.reportDir)) :
    ¬ Conserved (c.perform s).tree c.out ids logs := by
  have hbefore := kept_beforeFlush c s chosen cases
  have hsame := way_beforeFlush c s chosen cases (Files.join c.out chosen.config.reportDir)
  have hnone : ∀ l ∈ s.tree.way (Files.join c.out chosen.config.reportDir),
      (c.beforeFlush s chosen cases).store.file? l = none := by
    intro l hl
    obtain ⟨hnone, hown⟩ := hfree l hl
    rw [hbefore.file l hown]
    exact hnone
  rw [← hsame] at hnone hway
  have hdirectory := Tree.createDirectories_of_free hnone _ hway
  have hflush : (c.flushing s chosen cases).2.2 = _ :=
    Outbox.store_flush (outletsIn c.out chosen.config.reportDir).collector
      ⟨s.batchId, (c.beforeFlush s chosen cases).now⟩ (c.beforeFlush s chosen cases).store hlogs
  have hrest : Standing
      ((c.beforeFlush s chosen cases).store.createDirectories
        (Files.join c.out chosen.config.reportDir)).1 (c.perform s).tree := by
    have hafter := kept_afterFlush c s chosen cases
    rw [hflush] at hafter
    rw [h.perform]
    exact ((standing_accept _ _ _).trans (standing_of_kept hafter)).trans
      (standing_settled c s chosen cases)
  have hwhole : Standing (c.made s) (c.perform s).tree := by
    rw [h.perform]
    exact standing_settle_execute h.fresh.plain
  exact not_conserved_of_directory (hwhole.place h.writable.place)
    (hwhole.directory _ h.writable.directory) (hrest.directory _ hdirectory)

/-! ## Reports below the pending reports -/

/-- The artifacts and the files that some of them are written to first. -/
def artifactNames : List String :=
  [Artifact.fileName .summary, Artifact.fileName .state, Artifact.fileName .pending,
    Artifact.fileName .effectiveConfig, pendingDraft, stateDraft]

/-- A report directory is none of the artifacts and of the files they are written
to first. -/
def Elsewhere (t : Tree) (out : String) (home : Location) (reportDir : String) : Prop :=
  ∀ name ∈ artifactNames,
    (t.way (Files.join out reportDir)).getLast? ≠ some (home ++ [name])

/-- The search suite with its reports below the pending reports. -/
def belowSuite : String :=
  "[report]\ndir = \"pending_reports.json/x\"\n" ++ searchSuite

theorem layerOfText?_belowSuite : Toml.layerOfText? belowSuite =
    some (.object [("report", .object [("dir", .string "pending_reports.json/x")]),
      ("tests", searchTests)]) := by
  have hchars : belowSuite.toList = _ := toList_append_of String.toList_ofList
    (toList_append_of String.toList_ofList String.toList_ofList)
  unfold Toml.layerOfText? Toml.ofText?
  rw [hchars]
  cbv

/-- The account is lost although the report directory is no artifact. -/
theorem not_conserved_below_pending : ∃ chosen cases,
    Begins plainRun (quietSetting belowSuite) chosen cases ["out"] ∧
      chosen.config.reportDir = "pending_reports.json/x" ∧
      Elsewhere (quietSetting belowSuite).tree plainRun.out ["out"] chosen.config.reportDir ∧
      ¬ Conserved (plainRun.perform (quietSetting belowSuite)).tree plainRun.out ["first"]
        (plainRun.execute (quietSetting belowSuite) chosen cases
          (plainRun.made (quietSetting belowSuite))).progress.outbox.logs := by
  have hconfig : Config.ofValue (mergeLayers [Effective.builtinLayer.value,
      .object [("report", .object [("dir", .string "pending_reports.json/x")]),
        ("tests", searchTests)]]) = .ok (searchConfig "pending_reports.json/x") := rfl
  have hway : (quietSetting belowSuite).tree.way
      (Files.join plainRun.out "pending_reports.json/x") =
      [["out"], ["out", "pending_reports.json"], ["out", "pending_reports.json", "x"]] := rfl
  obtain ⟨e, hprepare⟩ := prepare_quiet layerOfText?_belowSuite hconfig
  have hbegins := begins_search hprepare
  refine ⟨_, _, hbegins, rfl, ?_, hbegins.not_conserved ?_ ?_ ?_⟩
  · unfold Elsewhere
    simp only [searchConfig, hway]
    decide
  · obtain ⟨log, hlog⟩ :=
      (beforeFlush_search (s := quietSetting belowSuite) rfl "pending_reports.json/x" e).2
    rw [hlog]
    exact List.cons_ne_nil log []
  · simp only [searchConfig, hway]
    intro l hl
    simp only [List.mem_cons, List.not_mem_nil, or_false] at hl
    unfold OwnName
    rcases hl with rfl | rfl | rfl
    · exact ⟨rfl, by decide⟩
    · exact ⟨rfl, by decide⟩
    · exact ⟨rfl, by decide⟩
  · simp only [searchConfig, hway]
    decide

end Compliance.Cli
