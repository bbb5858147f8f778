import Compliance.Proofs.Cli.Aftermath
import Compliance.Proofs.Cli.Rewriting

/-!
# Overridden report directories

A run notes its report directory in its summary, and a flush notes there the directory
it addressed, be it the one that it was asked to.  The next flush takes it from there.
-/

namespace Compliance.Cli

open Compliance.Check (TestCase)
open Compliance.Device (Script)
open Compliance.Files (Location Tree)
open Compliance.Report (IsPlain Outbox ReportError)
open Compliance.Run (Summary)
open Compliance.Suite (Effective SetLimit)
open Compliance.Time (Timestamp)

/-! ## The summary of a run -/

/-- A run that gets past its configuration and ends while its times can be written.  No
directory is in the place of its summary, nor does one come to be there on the way to
the reports. -/
structure Summarizes [SetLimit] (c : RunCommand) (s : Setting) (chosen : Selection Script)
    (cases : List TestCase) (home : Location) : Prop where
  prepared : c.prepare s = .ok (chosen, cases)
  created : (s.tree.createDirectories c.out).2 = .ok ()
  place : (c.made s).place c.out = .ok home
  directory : (c.made s).isDirectory home = true
  free : (c.made s).isDirectory (home ++ [Artifact.fileName .summary]) = false
  apart : home ++ [Artifact.fileName .summary] ∉
    s.tree.way (Files.join c.out chosen.config.reportDir)
  plain : IsPlain s.batchId
  inTime : (c.execute s chosen cases (c.made s)).progress.bench.clock ≤ Timestamp.lastMillis
  few : cases.length < 2 ^ 64

section Run

variable {c : RunCommand} {s : Setting} {chosen : Selection Script} {cases : List TestCase}
  {home : Location} [SetLimit]

theorem Begins.summarizes (h : Begins c s chosen cases home)
    (ha : Apart s.tree c.out home chosen.config.reportDir) :
    Summarizes c s chosen cases home where
  prepared := h.prepared
  created := h.created
  place := h.writable.place
  directory := h.writable.directory
  free := h.writable.free _ summary_mem_carriers
  apart := ha _ summary_mem_carriers
  plain := h.fresh.plain
  inTime := h.inTime
  few := h.few

variable (h : Summarizes c s chosen cases home)

include h

theorem Summarizes.sound : (c.execute s chosen cases (c.made s)).summary.Sound := by
  obtain ⟨hlittle, hids⟩ := Suite.casesOf_spec (casesOf_of_prepare h.prepared)
  have htime := h.inTime
  rw [RunCommand.bench_execute] at htime
  exact Run.sound_runSuite _ _ _ _ _ _ _ hlittle hids h.few htime

theorem Summarizes.summaryIn_perform : summaryIn (c.perform s).tree c.out =
    some (inDirectory (c.execute s chosen cases (c.made s)).summary chosen.config.reportDir) := by
  have hstanding : Standing (c.made s) (c.configured s chosen cases) :=
    standing_configured h.plain
  have hsame : Tree.entry? (c.configured s chosen cases) (home ++ [Artifact.fileName .summary]) =
      Tree.entry? (c.made s) (home ++ [Artifact.fileName .summary]) :=
    entry_configured h.plain summary_mem_carriers fun _ => h.apart
  have hkeep := kept_keepPending (c.flushing s chosen cases).2.1 c.out
    (c.configured s chosen cases)
  have hother : Tree.entry? (keepPending (c.flushing s chosen cases).2.1 c.out
      (c.configured s chosen cases)) (home ++ [Artifact.fileName .summary]) =
      Tree.entry? (c.configured s chosen cases) (home ++ [Artifact.fileName .summary]) := by
    apply hkeep.entry _ _ not_false
    rw [List.getLast?_concat]
    decide
  have hp := hkeep.place (hstanding.place h.place)
  have hd := hkeep.directory home (hstanding.directory home h.directory)
  have hfree := (Tree.isDirectory_congr (hother.trans hsame)).trans h.free
  have hsound := sound_inDirectory h.sound chosen.config.reportDir
  rw [RunCommand.tree_perform h.prepared h.created, RunCommand.settle_execute,
    Artifact.write_of_place hp hd .summary hfree]
  have hput := Tree.kept_putFile hfree (inDirectory
    (c.execute s chosen cases (c.made s)).summary chosen.config.reportDir).toText.toUTF8
  have hread := Artifact.readText_path (hput.place hp) (hput.directory home hd) .summary
    (by rw [Tree.entry?_put (by simp), if_pos rfl])
  rw [summaryIn, hread, Except.toOption, Option.bind_some, hsound.wellFormed.ofText?_toText]

end Run

/-! ## Flushes that fail -/

/-- A flush of the output directory that reads pending reports and fails to deliver
them.  Since the last command nothing has become of the summary. -/
structure Fails (out : String) (t : Tree) (f : FlushCommand) (s : Setting) : Prop where
  same : f.out = out
  summary : summaryIn s.tree out = summaryIn t out
  plain : IsPlain s.batchId
  few : ∀ o, Outbox.load s.tree (Artifact.path .pending out) = .ok o → o.unsentCount < 2 ^ 64
  failed : (f.perform s).exit = 30

/-- The files after a run and flushes that fail, and the report directories that these
were asked for, the last one first. -/
inductive Retried [SetLimit] (c : RunCommand) (s : Setting) : List (Option String) → Tree → Prop
  | run : Retried c s [] (c.perform s).tree
  | flush {asked : List (Option String)} {t : Tree} (f : FlushCommand) (s' : Setting)
      (h : Retried c s asked t) (hf : Fails c.out t f s') :
      Retried c s (f.reportDir :: asked) (f.perform s').tree

/-- The directory that was asked for last, or else the one at first. -/
def lastAsked (first : String) : List (Option String) → String
  | [] => first
  | some directory :: _ => directory
  | none :: asked => lastAsked first asked

section Flush

variable {f g : FlushCommand} {s : Setting}

theorem reportDirIn_of_summaryIn {m : Summary} {t : Tree} {directory : String}
    (hm : summaryIn t f.out = some m) (hd : m.report.dir = some directory) :
    f.reportDirIn t = f.reportDir.getD directory := by
  have hdelivery : deliveryIn t f.out = m.report := by
    rw [deliveryIn, hm]
  rw [FlushCommand.reportDirIn, hdelivery, Run.Delivery.reportDir, hd]
  cases f.reportDir <;> rfl

/-- The report directory that was asked for matters only where none is noted. -/
theorem perform_congr (hout : f.out = g.out) (hjson : f.json = g.json)
    (hd : f.reportDirIn s.tree = g.reportDirIn s.tree) : f.perform s = g.perform s := by
  obtain ⟨out, asked, json⟩ := f
  obtain ⟨out', asked', json'⟩ := g
  cases hout
  cases hjson
  simp only [FlushCommand.perform, FlushCommand.deliver, hd]
  rfl

theorem load_of_failed (h : (f.perform s).exit = 30) :
    ∃ o, Outbox.load s.tree (Artifact.path .pending f.out) = .ok o := by
  simp only [FlushCommand.perform] at h
  split at h
  · split at h
    · cases h
    · rename_i o hload
      exact ⟨o, hload⟩
  · cases h

theorem exit_of_flush_error {o o' : Outbox} {t' : Tree} {e : ReportError}
    (hload : Outbox.load s.tree (Artifact.path .pending f.out) = .ok o)
    (hflush : o.flush (collectorIn f.out (f.reportDirIn s.tree)) ⟨s.batchId, s.now⟩ s.tree =
      (.error e, o', t')) : (f.perform s).exit = 30 := by
  rw [perform_of_load hload]
  simp only [FlushCommand.deliver, hflush]
  rfl

end Flush

section Histories

variable {c : RunCommand} {s : Setting} {chosen : Selection Script} {cases : List TestCase}
  {home : Location} [SetLimit] (h : Summarizes c s chosen cases home) {asked : List (Option String)}
  {t : Tree} (hr : Retried c s asked t)

include h hr

/-- Each command leaves a summary with the directory that the next one will address. -/
theorem Retried.noted : ∃ m, summaryIn t c.out = some m ∧ m.WellFormed ∧ m.UpToDate ∧
    m.report.dir = some (lastAsked chosen.config.reportDir asked) := by
  induction hr with
  | run =>
      refine ⟨_, h.summaryIn_perform, (sound_inDirectory h.sound _).wellFormed, ?_, rfl⟩
      exact upToDate_inDirectory (Summary.upToDate_withReport _ _) _
  | @flush asked t f s' hr hf ih =>
      obtain ⟨m, hm, hw, hu, hdir⟩ := ih
      obtain ⟨hsame, hsummary, hplain, hfew, hfailed⟩ := hf
      rw [← hsummary, ← hsame] at hm
      obtain ⟨o, hload⟩ := load_of_failed hfailed
      obtain ⟨d, hd, hnoted, hwritten⟩ :=
        summaryIn_deliver hm hw hu hplain (hfew o (hsame ▸ hload))
      rw [← perform_of_load hload, hsame] at hwritten
      refine ⟨_, hwritten, hw.withReport hu hd, m.upToDate_withReport d, ?_⟩
      rw [reportDirIn_of_summaryIn hm hdir] at hnoted
      refine Eq.trans ?_ (hnoted.trans ?_)
      · rfl
      · cases f.reportDir <;> rfl

/-- After a run and flushes that failed, a flush that is asked for no report directory
does what it would do if asked for the one that was asked for last, or for that of the
run if there was none. -/
theorem flush_addresses_lastAsked {f : FlushCommand} {s' : Setting} (hout : f.out = c.out)
    (hnone : f.reportDir = none) (hsame : summaryIn s'.tree c.out = summaryIn t c.out) :
    let directory := lastAsked chosen.config.reportDir asked
    f.reportDirIn s'.tree = directory ∧
      f.perform s' = ({ f with reportDir := some directory } : FlushCommand).perform s' := by
  intro directory
  obtain ⟨m, hm, -, -, hdir⟩ := hr.noted h
  rw [← hsame, ← hout] at hm
  have hplain : f.reportDirIn s'.tree = directory := by
    rw [reportDirIn_of_summaryIn hm hdir, hnone]
    rfl
  refine ⟨hplain, perform_congr rfl rfl ?_⟩
  rw [hplain]
  exact (reportDirIn_of_summaryIn (f := ({ f with reportDir := some directory } :
    FlushCommand)) hm hdir).symm

end Histories

/-! ## The search with files in the place of its report directories -/

def elsewhere : FlushCommand :=
  ⟨plainRun.out, some "other", false⟩

/-- A file keeps the flush from the directory that it is asked for. -/
theorem exit_elsewhere {t : Tree} {log : Report.Log} {content : ByteArray}
    (hp : t.place plainRun.out = .ok ["out"]) (hd : t.isDirectory ["out"] = true)
    (he : t.entry? (["out"] ++ ["other"]) = some (.file content))
    (hload : Outbox.load t (Artifact.path .pending plainRun.out) =
      .ok (Outbox.empty.submit log)) :
    (elsewhere.perform (later t "second")).exit = 30 := by
  have hname : Files.IsName "other" := by decide
  have hunsent : (Outbox.empty.submit log).unsent ≠ [] := List.cons_ne_nil log []
  exact exit_of_flush_error (f := elsewhere) hload (flush_of_file _ hp hd hname he hunsent)

section Blocked

variable {e : Effective}
  (h : plainRun.prepare blockedSetting = .ok (searched e Suite.defaultReportDir, [searchCase]))

include h

theorem summarizes_blocked : Summarizes plainRun blockedSetting
    (searched e Suite.defaultReportDir) [searchCase] ["out"] :=
  (begins_blocked h).summarizes (apart_reports rfl)

theorem load_blocked : ∃ log, Outbox.load (plainRun.perform blockedSetting).tree
    (Artifact.path .pending plainRun.out) = .ok (Outbox.empty.submit log) := by
  obtain ⟨log, hlog⟩ := flushing_blocked e
  refine ⟨log, ?_⟩
  have hload := load_settle h (summarizes_blocked h).plain (clock_search rfl _ e)
    (begins_blocked h).writable (apart_reports rfl) (by
      rw [hlog]
      exact List.cons_ne_nil log [])
  rw [hlog, ← RunCommand.tree_perform h rfl] at hload
  exact hload

theorem fails_elsewhere : Fails plainRun.out (plainRun.perform blockedSetting).tree elsewhere
    (later (plainRun.perform blockedSetting).tree "second") := by
  obtain ⟨log, hload⟩ := load_blocked h
  have hplain : IsPlain blockedSetting.batchId := (summarizes_blocked h).plain
  have hfile : (plainRun.perform blockedSetting).tree.file? (["out"] ++ ["other"]) =
      some "".toUTF8 := by
    have hmade : (plainRun.made blockedSetting).file? (["out"] ++ ["other"]) =
      some "".toUTF8 := rfl
    rw [RunCommand.tree_perform h rfl]
    exact (file?_settle hplain (by decide)).trans hmade
  constructor
  case same => rfl
  case summary => rw [tree_later]
  case plain => decide
  case few =>
    intro o ho
    rw [tree_later] at ho
    cases hload.symm.trans ho
    have hone : (Outbox.empty.submit log).unsentCount = 1 := rfl
    rw [hone]
    decide
  case failed =>
    have hlast : Standing (plainRun.made blockedSetting)
        (plainRun.perform blockedSetting).tree := by
      rw [RunCommand.tree_perform h rfl]
      exact standing_settle_execute hplain
    exact exit_elsewhere (hlast.place place_made) (hlast.directory ["out"] rfl)
      (Tree.file?_eq_some.1 hfile) hload

end Blocked

/-- Asked for another directory once, a flush that is asked for none addresses it. -/
theorem flush_addresses_lastAsked_other : ∃ chosen cases,
    Summarizes plainRun blockedSetting chosen cases ["out"] ∧
      Retried plainRun blockedSetting [some "other"]
        (elsewhere.perform (later (plainRun.perform blockedSetting).tree "second")).tree ∧
      let s := later
        (elsewhere.perform (later (plainRun.perform blockedSetting).tree "second")).tree "third"
      let f : FlushCommand := ⟨plainRun.out, none, false⟩
      f.perform s = elsewhere.perform s := by
  obtain ⟨e, hprepare⟩ := prepare_blocked
  have hsummarizes := summarizes_blocked hprepare
  have hretried : Retried plainRun blockedSetting [elsewhere.reportDir] _ :=
    .flush elsewhere _ .run (fails_elsewhere hprepare)
  refine ⟨_, _, hsummarizes, hretried, ?_⟩
  exact (flush_addresses_lastAsked hsummarizes hretried rfl rfl (by rw [tree_later])).2

/-- What one flush was asked for sticks to the next, though neither it nor the run has
delivered anything. -/
theorem override_sticks : ∃ chosen cases,
    plainRun.prepare blockedSetting = .ok (chosen, cases) ∧
      chosen.config.reportDir = "reports" ∧
      waitingIn (plainRun.perform blockedSetting).tree plainRun.out ≠ [] ∧
      let s := later (plainRun.perform blockedSetting).tree "second"
      (elsewhere.perform s).exit = 30 ∧
        (⟨plainRun.out, none, false⟩ : FlushCommand).reportDirIn (elsewhere.perform s).tree =
          "other" := by
  obtain ⟨e, hprepare⟩ := prepare_blocked
  obtain ⟨log, hload⟩ := load_blocked hprepare
  have hfails := fails_elsewhere hprepare
  have hretried : Retried plainRun blockedSetting [elsewhere.reportDir] _ :=
    .flush elsewhere _ .run hfails
  obtain ⟨m, hm, -, -, hdir⟩ := hretried.noted (summarizes_blocked hprepare)
  refine ⟨_, _, hprepare, rfl, ?_, hfails.failed, ?_⟩
  · rw [waitingIn, hload]
    exact List.cons_ne_nil log []
  · exact reportDirIn_of_summaryIn hm hdir

end Compliance.Cli
