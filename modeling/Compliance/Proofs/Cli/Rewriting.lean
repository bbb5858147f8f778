import Compliance.Proofs.Cli.Custody

/-!
# Summaries that a flush rewrites

A flush reads the summary that is in the output directory, and of it only the report
section.  What it writes back differs in that section and in what is computed from
it: status, exit code and text.
-/

namespace Compliance.Run

/-- What follows from results and delivery has been computed. -/
def Summary.UpToDate (m : Summary) : Prop :=
  m.recompute = m

/-- The summaries tell of the same run: all but the delivery and what depends on it. -/
def Summary.SameRun (m m' : Summary) : Prop :=
  m' = { m with
    report := m'.report
    status := m'.status
    exitCode := m'.exitCode
    human := m'.human }

theorem Summary.upToDate_withReport (m : Summary) (d : Delivery) : (m.withReport d).UpToDate :=
  rfl

theorem Summary.UpToDate.sameRun {m : Summary} (h : m.UpToDate) (d : Delivery) :
    m.SameRun (m.withReport d) := by
  have hcount := congrArg testCount h
  have hpassed := congrArg passed h
  have hfailed := congrArg failed h
  have herrored := congrArg errored h
  have hskipped := congrArg skipped h
  simp only [recompute] at hcount hpassed hfailed herrored hskipped
  simp only [SameRun, withReport, recompute, hcount, hpassed, hfailed, herrored, hskipped]

theorem Summary.WellFormed.withReport {m : Summary} (h : m.WellFormed) (hu : m.UpToDate)
    {d : Delivery} (hd : d.Sound) : (m.withReport d).WellFormed := by
  have hsame := hu.sameRun d
  constructor
  case exitCode => exact ExitCode.value_fits _
  case report => exact hd
  all_goals rw [hsame]
  case version => exact h.version
  case created => exact h.created
  case testCount => exact h.testCount
  case passed => exact h.passed
  case failed => exact h.failed
  case errored => exact h.errored
  case skipped => exact h.skipped
  case duration => exact h.duration
  case results => exact h.results

end Compliance.Run

namespace Compliance.Cli

open Compliance.Files (Location Tree)
open Compliance.Report (FlushReceipt IsPlain Outbox ReportError)
open Compliance.Run (Delivery Summary)

/-! ## The place of a summary -/

/-- The path of the summary leads to a file. -/
structure SummaryAt (t : Tree) (out : String) (l : Location) : Prop where
  located : t.locate (Artifact.path .summary out) = .ok l
  named : l.getLast? = some (Artifact.fileName .summary)
  file : ∃ content, t.entry? l = some (.file content)

variable {t t' : Tree} {out : String} {l : Location} {m : Summary}

theorem summaryAt_of_summaryIn (h : summaryIn t out = some m) : ∃ l, SummaryAt t out l := by
  obtain ⟨text, hread, -⟩ := Option.bind_eq_some_iff.1 h
  cases hr : t.readText (Artifact.path .summary out) with
  | error e =>
      rw [hr] at hread
      cases hread
  | ok text' =>
      obtain ⟨l, content, hl, he⟩ := Tree.readText_eq_ok hr
      obtain ⟨home, -, rfl⟩ := Tree.locate_join_eq_ok (Artifact.isName_fileName .summary) hl
      exact ⟨_, hl, List.getLast?_concat, content, he⟩

namespace SummaryAt

variable (h : SummaryAt t out l)

include h

theorem kept {files way : Location → Prop} (hk : Tree.Kept files way t t') (hf : ¬ files l)
    (hw : ¬ way l) : SummaryAt t' out l ∧ summaryIn t' out = summaryIn t out := by
  have hl := hk.locate h.located
  have he := hk.entry l hf hw
  refine ⟨⟨hl, h.named, he ▸ h.file⟩, ?_⟩
  simp only [summaryIn, Tree.readText, Tree.read, hl, h.located, he, bind, Except.bind]

theorem write (hm : Summary.ofText? m.toText = some m) :
    SummaryAt (Artifact.write .summary out m.toText t) out l ∧
      summaryIn (Artifact.write .summary out m.toText t) out = some m := by
  obtain ⟨content, he⟩ := h.file
  have hd := Tree.isDirectory_of_file he
  have hne := Tree.ne_root_of_file he
  have hput : Artifact.write .summary out m.toText t = t.put l (.file m.toText.toUTF8) := by
    have hw : t.writeText (Artifact.path .summary out) m.toText = .ok (t.put l _) :=
      Tree.write_of_locate h.located hd _
    rw [Artifact.write, hw]
    rfl
  have hl := (Tree.kept_putFile hd m.toText.toUTF8).locate h.located
  have hentry : Tree.entry? (t.put l (.file m.toText.toUTF8)) l =
      some (.file m.toText.toUTF8) := by
    rw [Tree.entry?_put hne, if_pos rfl]
  rw [hput]
  refine ⟨⟨hl, h.named, _, hentry⟩, ?_⟩
  rw [summaryIn, Tree.readText_of_locate hl hentry, Except.toOption, Option.bind_some, hm]

end SummaryAt

theorem SummaryAt.flush (h : SummaryAt t out l) {o o' : Outbox} {directory : String}
    {stamp : Report.Stamp} (hb : IsPlain stamp.batchId)
    {flushed : Except ReportError FlushReceipt}
    (hf : o.flush (.toDirectory directory) stamp t = (flushed, o', t')) :
    SummaryAt t' out l ∧ summaryIn t' out = summaryIn t out := by
  have hkept := o.kept_flush directory stamp hb t
  rw [hf] at hkept
  -- no name that a batch is written under is that of the summary
  have hhead := head_carriers _ summary_mem_carriers
  refine h.kept hkept ?_ ?_
  · rw [h.named, Option.some.injEq, Option.some.injEq]
    rintro (hdraft | hbatch)
    · exact Report.draftName_ne hhead.2 hdraft.symm
    · exact Report.batchName_ne hhead.1 hbatch.symm
  · rintro ⟨-, hnone⟩
    obtain ⟨content, he⟩ := h.file
    rw [he] at hnone
    cases hnone

/-! ## A flush -/

variable {f : FlushCommand}

/-- Whatever came of the flush, the pending reports are another file. -/
theorem summaryIn_conclude (h : SummaryAt t f.out l) (d : Delivery) (o : Outbox)
    (flushed : Except ReportError FlushReceipt) :
    summaryIn (f.conclude d o t flushed).tree f.out = summaryIn t f.out := by
  have hpending : Artifact.fileName .summary ≠ Artifact.fileName .pending := by decide
  have hdraft : Artifact.fileName .summary ≠ pendingDraft := by decide
  cases flushed with
  | ok r =>
      refine (h.kept (Artifact.kept_remove .pending f.out t) ?_ not_false).2
      simpa [h.named] using hpending
  | error e =>
      refine (h.kept (kept_savePending o f.out t) ?_ not_false).2
      simpa [h.named] using And.intro hdraft hpending

section Deliver

variable {s : Setting} (hm : summaryIn s.tree f.out = some m) (hw : m.WellFormed)
  (hu : m.UpToDate) (hb : IsPlain s.batchId)

include hm hw hu hb

/-- A flush of pending reports writes the summary with another delivery, to the
directory that it addressed. -/
theorem summaryIn_deliver {o : Outbox} (ho : o.unsentCount < 2 ^ 64) :
    ∃ d : Delivery, d.Sound ∧ d.dir = some (f.reportDirIn s.tree) ∧
      summaryIn (f.deliver s o).tree f.out = some (m.withReport d) := by
  obtain ⟨l, hat⟩ := summaryAt_of_summaryIn hm
  cases hf : o.flush (collectorIn f.out (f.reportDirIn s.tree)) ⟨s.batchId, s.now⟩ s.tree with
  | mk flushed rest =>
      obtain ⟨o', t'⟩ := rest
      have hdelivery : deliveryIn s.tree f.out = m.report := by
        unfold deliveryIn
        rw [hm]
      obtain ⟨hleft, hsent⟩ := Outbox.flush_counts _ _ _ hf
      have hafter := hw.report.afterFlush (lt_of_le_of_lt hleft ho)
        fun r hr => lt_of_le_of_lt (hsent r hr) ho
      let d : Delivery :=
        { m.report.afterFlush o'.unsentCount flushed with dir := some (f.reportDirIn s.tree) }
      have hd : d.Sound := ⟨hafter.sent, hafter.pending⟩
      have hwritten := (hat.flush hb hf).1.write (hw.withReport hu hd).ofText?_toText
      refine ⟨d, hd, rfl, ?_⟩
      simp only [FlushCommand.deliver, hf, hm, hdelivery, updateSummary]
      rw [summaryIn_conclude hwritten.1]
      exact hwritten.2

/-- After a flush command the summary is of the same run, and can be read again. -/
theorem summaryIn_perform (ho : ∀ o, Outbox.load s.tree (Artifact.path .pending f.out) = .ok o →
      o.unsentCount < 2 ^ 64) :
    ∃ m', summaryIn (f.perform s).tree f.out = some m' ∧ m.SameRun m' ∧ m'.WellFormed ∧
      m'.UpToDate := by
  simp only [FlushCommand.perform]
  split
  · split
    · exact ⟨m, hm, rfl, hw, hu⟩
    · rename_i o hload
      obtain ⟨d, hd, -, hleft⟩ := summaryIn_deliver hm hw hu hb (ho o hload)
      exact ⟨_, hleft, hu.sameRun d, hw.withReport hu hd, m.upToDate_withReport d⟩
  · exact ⟨m, hm, rfl, hw, hu⟩

end Deliver

theorem upToDate_inDirectory (hu : m.UpToDate) (reportDir : String) :
    (inDirectory m reportDir).UpToDate := by
  have hsame : m.recompute = m := hu
  rw [← hsame]
  rfl

/-- Summaries and states read back as they were written.  A run leaves a summary in
which all that follows from its results is computed, and of such a summary a flush reads
the delivery and rewrites no more than that and what depends on it. -/
theorem artifacts_round_trip :
    (∀ m : Summary, m.WellFormed → Summary.ofText? m.toText = some m) ∧
      (∀ s : Run.State, s.WellFormed → Run.State.ofText? s.toText = some s) ∧
      (∀ (c : RunCommand) (s : Setting) chosen cases t,
        (inDirectory (c.execute s chosen cases t).summary chosen.config.reportDir).UpToDate) ∧
      ∀ (f : FlushCommand) (s : Setting) (m : Summary), IsPlain s.batchId →
        m.WellFormed → m.UpToDate →
        s.tree.readText (Artifact.path .summary f.out) = .ok m.toText →
        (∀ o, Outbox.load s.tree (Artifact.path .pending f.out) = .ok o →
          o.unsentCount < 2 ^ 64) →
        deliveryIn s.tree f.out = m.report ∧
          ∃ m', summaryIn (f.perform s).tree f.out = some m' ∧ m.SameRun m' ∧
            m'.WellFormed ∧ m'.UpToDate := by
  refine ⟨fun m hm => hm.ofText?_toText, fun s hs => hs.ofText?_toText, ?_, ?_⟩
  · intro c s chosen cases t
    exact upToDate_inDirectory (Summary.upToDate_withReport _ _) _
  · intro f s m hb hw hu hread ho
    have hm : summaryIn s.tree f.out = some m := by
      rw [summaryIn, hread, Except.toOption, Option.bind_some, hw.ofText?_toText]
    refine ⟨?_, summaryIn_perform hm hw hu hb ho⟩
    unfold deliveryIn
    rw [hm]

/-! ## A summary with all kinds of results -/

def mixedTime : Time.Timestamp :=
  ⟨-8334601228800, 500⟩

theorem valid_mixedTime : mixedTime.Valid :=
  ⟨by decide, by decide, by decide⟩

def mixedResult (status : Run.Status) (cause : Option Check.FailureCause)
    (detail : Option String) : Run.TestResult :=
  ⟨⟨"a b", "\"c\"", by decide⟩, status, cause, detail, mixedTime, 2 ^ 64 - 1, 0⟩

def mixedSummary : Summary :=
  .ofResults ⟨"", "é\n", "#"⟩
    [mixedResult .fail (some .timedOut) none, mixedResult .pass none (some ""),
      mixedResult .error (some .panicked) (some "\\u0000"), mixedResult .skipped none none]
    true 7 mixedTime

theorem wellFormed_mixedSummary : mixedSummary.WellFormed := by
  constructor
  case created => exact valid_mixedTime
  case results =>
    have hresult (status cause detail) : (mixedResult status cause detail).WellFormed :=
      ⟨valid_mixedTime, Nat.sub_lt (Nat.two_pow_pos 64) Nat.one_pos, Nat.two_pow_pos 64⟩
    simp only [mixedSummary, Summary.ofResults, Summary.recompute, List.mem_cons,
      List.not_mem_nil, or_false]
    rintro r (rfl | rfl | rfl | rfl)
    all_goals exact hresult _ _ _
  case report => exact Delivery.sound_none
  all_goals decide

def mixedState : Run.State :=
  ⟨0, "", "s", .running, mixedTime, ⟨-1, 1500000000⟩, some ⟨3, "no id", .cleanup⟩, 2, 1,
    2 ^ 64 - 1⟩

theorem wellFormed_mixedState : mixedState.WellFormed := by
  constructor
  case created => exact valid_mixedTime
  case updated => exact ⟨by decide, by decide, by decide⟩
  case current =>
    rintro c ⟨⟩
    decide
  all_goals decide

/-- One log that waits. -/
def mixedOutbox : Outbox :=
  Outbox.empty.submit (.start ⟨"a", "b", "c"⟩ mixedTime)

/-- An output directory with a summary and pending reports. -/
def mixedSetting (summary pending : String) : Setting :=
  ⟨⟨[(["out"], .directory), (["out", "pending_reports.json"], .file pending.toUTF8),
    (["out", "suite_summary.json"], .file summary.toUTF8)], []⟩, none, 0, "suite", "second"⟩

theorem place_mixedSetting (summary pending : String) :
    (mixedSetting summary pending).tree.place "out" = .ok ["out"] :=
  rfl

theorem ofText?_mixedOutbox : Outbox.ofText? mixedOutbox.toText = some mixedOutbox := by
  have hfiled : mixedOutbox.Filed := Report.Outbox.filed_empty.submit _
  have hwell : mixedOutbox.WellFormed := by
    have hempty : Outbox.empty.WellFormed := by
      intro e he
      cases he
    exact hempty.submit (Report.Log.fit_start _ valid_mixedTime)
  exact hwell.ofText?_toText hfiled

theorem load_mixedSetting (summary : String) :
    Outbox.load (mixedSetting summary mixedOutbox.toText).tree (Artifact.path .pending "out") =
      .ok mixedOutbox :=
  load_pending (place_mixedSetting _ _) rfl rfl ofText?_mixedOutbox

theorem artifacts_round_trip_mixed :
    Summary.ofText? mixedSummary.toText = some mixedSummary ∧
      Run.State.ofText? mixedState.toText = some mixedState ∧
      let s := mixedSetting mixedSummary.toText mixedOutbox.toText
      Outbox.load s.tree (Artifact.path .pending "out") = .ok mixedOutbox ∧
        ∃ m', summaryIn ((⟨"out", none, true⟩ : FlushCommand).perform s).tree "out" =
            some m' ∧ mixedSummary.SameRun m' := by
  obtain ⟨hsummaries, hstates, -, hflush⟩ := artifacts_round_trip
  have hload := load_mixedSetting mixedSummary.toText
  refine ⟨hsummaries _ wellFormed_mixedSummary, hstates _ wellFormed_mixedState, hload, ?_⟩
  have hread : (mixedSetting mixedSummary.toText mixedOutbox.toText).tree.readText
      (Artifact.path .summary "out") = .ok mixedSummary.toText :=
    Artifact.readText_path (place_mixedSetting _ _) rfl .summary rfl
  have hfew : ∀ o, Outbox.load (mixedSetting mixedSummary.toText mixedOutbox.toText).tree
      (Artifact.path .pending "out") = .ok o → o.unsentCount < 2 ^ 64 := by
    intro o ho
    rw [hload] at ho
    cases ho
    decide
  obtain ⟨-, m', hm', hsame, -, -⟩ := hflush ⟨"out", none, true⟩ _ mixedSummary (by decide)
    wellFormed_mixedSummary rfl hread hfew
  exact ⟨m', hm', hsame⟩

end Compliance.Cli
