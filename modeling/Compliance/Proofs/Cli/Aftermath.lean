import Compliance.Proofs.Cli.Conservation

/-!
# What a run leaves

Before it comes to the pending reports, a run writes its states, its configuration and
one batch at most.  Then the pending reports become those of this run, whatever they
were, and the summary is written last.
-/

namespace Compliance.Cli

open Compliance.Check (TestCase)
open Compliance.Device (Script)
open Compliance.Files (Location Tree)
open Compliance.Report (Batch Collector IsPlain Log Outbox Stamp batchName draftName)
open Compliance.Suite (SetLimit)
open Compliance.Time (Timestamp)

variable {t t' : Tree} {out reportDir : String} {home : Location} {o : Outbox}
  {files way : Location → Prop} {log : Log}

/-- Directories stay, whatever happens to files. -/
abbrev Standing : Tree → Tree → Prop :=
  Tree.Kept (fun _ => True) fun _ => True

theorem standing_of_kept (h : Tree.Kept files way t t') : Standing t t' :=
  h.mono (fun _ _ => trivial) fun _ _ => trivial

/-! ## Batch files -/

def InBatch (t : Tree) (log : Log) : Prop :=
  ∃ id l b, l.getLast? = some (batchName id) ∧ batchAt? t l = some b ∧ log ∈ b.logs

theorem inBatch_congr
    (h : ∀ id l, l.getLast? = some (batchName id) → t'.file? l = t.file? l) :
    InBatch t' log ↔ InBatch t log := by
  refine exists_congr fun id => exists_congr fun l => exists_congr fun b => ?_
  refine and_congr_right fun hl => ?_
  rw [batchAt?, batchAt?, h id l hl]

theorem inBatch_of_names (hk : Tree.Kept files way t t')
    (hf : ∀ l, files l → ∃ name, l.getLast? = some name ∧ name.toList.head? ≠ some 'b') :
    InBatch t' log ↔ InBatch t log := by
  apply inBatch_congr
  intro id l hl
  apply hk.file
  intro hfile
  obtain ⟨name, hlast, hhead⟩ := hf l hfile
  rw [hl] at hlast
  exact Report.batchName_ne hhead (Option.some.inj hlast)

/-- Where no name begins like that of a batch there are no batches. -/
theorem not_inBatch_of_names (ls : List Location) (hls : t.entries.map (·.1) = ls)
    (h : ∀ l ∈ ls, ∀ name ∈ l.getLast?, name.toList.head? ≠ some 'b') : ¬ InBatch t log := by
  rintro ⟨id, l, b, hl, hb, -⟩
  rw [batchAt?] at hb
  obtain ⟨content, hcontent, -⟩ := Option.bind_eq_some_iff.1 hb
  have hmem := Tree.mem_entries_of_file hcontent
  exact Report.batchName_ne (h l (hls ▸ hmem) _ hl) rfl

/-- A batch in a new file adds its logs. -/
theorem inBatch_of_new {id : String} {l : Location} {b : Batch}
    (hl : l.getLast? = some (batchName id)) (hnew : t.file? l = none)
    (hb : batchAt? t' l = some b)
    (hother : ∀ id' k, k.getLast? = some (batchName id') → k ≠ l → t'.file? k = t.file? k) :
    InBatch t' log ↔ InBatch t log ∨ log ∈ b.logs := by
  constructor
  · rintro ⟨id', k, b', hk, hb', hlog⟩
    by_cases hkl : k = l
    · subst hkl
      cases hb.symm.trans hb'
      exact Or.inr hlog
    · rw [batchAt?, hother id' k hk hkl] at hb'
      exact Or.inl ⟨id', k, b', hk, hb', hlog⟩
  · rintro (⟨id', k, b', hk, hb', hlog⟩ | hlog)
    · have hkl : k ≠ l := by
        rintro rfl
        rw [batchAt?_of_none hnew] at hb'
        cases hb'
      refine ⟨id', k, b', hk, ?_, hlog⟩
      rw [batchAt?, hother id' k hk hkl]
      exact hb'
    · exact ⟨id, l, b, hl, hb, hlog⟩

/-! ## The flush -/

section Flush

variable (stamp : Stamp)

/-- What a flush delivers is then in a batch, and no other log that was in none. -/
theorem inBatch_flush (hf : Fresh t stamp.batchId) (htime : stamp.now.Valid)
    (hlogs : ∀ log ∈ o.unsent, log.WellFormed) :
    InBatch (o.flush (collectorIn out reportDir) stamp t).2.2 log ↔
      InBatch t log ∨
        (o.flush (collectorIn out reportDir) stamp t).2.1.unsent = [] ∧ log ∈ o.unsent := by
  rcases Outbox.flush_cases (o := o) (collectorIn out reportDir) stamp t with
    ⟨hnil, hflush⟩ | ⟨hne, ⟨e, u, hacc, hflush⟩ | ⟨a, u, hacc, hflush⟩⟩
  · rw [hflush]
    simp [hnil]
  · have hk := Collector.kept_of_error (b := .assemble stamp.batchId stamp.now o.unsent)
      hf.plain hacc
    have hsame : InBatch u log ↔ InBatch t log := by
      apply inBatch_congr
      intro id l hl
      apply hk.file
      rw [hl, Option.some.injEq]
      exact batchName_ne_draftName id _
    rw [hflush]
    simp [hsame, hne]
  · obtain ⟨m, hwritten, hk⟩ := Collector.filed_of_ok
      (b := .assemble stamp.batchId stamp.now o.unsent) hf.plain hacc
    have hname : (m ++ [batchName stamp.batchId]).getLast? = some (batchName stamp.batchId) :=
      List.getLast?_concat
    have hfile : u.file? (m ++ [batchName stamp.batchId]) = _ := Tree.file?_eq_some.2 hwritten
    have hread : batchAt? u (m ++ [batchName stamp.batchId]) =
        some (.assemble stamp.batchId stamp.now o.unsent) := by
      rw [batchAt?, hfile, Option.bind_some, Tree.fromUTF8?_toUTF8, Option.bind_some,
        Batch.ofText?_assemble stamp.batchId htime hlogs]
    have hother (id : String) (l : Location) (hl : l.getLast? = some (batchName id))
        (hne : l ≠ m ++ [batchName stamp.batchId]) : u.file? l = t.file? l := by
      apply hk.file
      rintro (hdraft | hbatch)
      · rw [hl, Option.some.injEq] at hdraft
        exact batchName_ne_draftName id _ hdraft
      · exact hne hbatch
    have hall : (Batch.assemble stamp.batchId stamp.now o.unsent).logs = o.unsent := rfl
    rw [hflush, inBatch_of_new hname (hf.unused _ hname) hread hother, hall]
    simp

end Flush

/-! ## Pending reports -/

section Pending

variable (hp : t.place out = .ok home) (hd : t.isDirectory home = true)
  (hfile : t.isDirectory (home ++ [Artifact.fileName .pending]) = false)

include hp hd hfile

theorem keepPending_of_nil (hnil : o.unsent = []) :
    Tree.entry? (keepPending o out t) (home ++ [Artifact.fileName .pending]) = none := by
  have hzero : ¬ 0 < o.unsentCount := by simp [Outbox.unsentCount, hnil]
  rw [keepPending, if_neg hzero, Artifact.exists?_path hp hd]
  cases he : t.entry? (home ++ [Artifact.fileName .pending]) with
  | none => exact he
  | some e =>
      cases e with
      | directory => exact absurd (Tree.isDirectory_iff.2 he) (Bool.eq_false_iff.1 hfile)
      | file content =>
          have hentry := Tree.entry?_erase (l := home ++ [Artifact.fileName .pending])
            (by simp) t (home ++ [Artifact.fileName .pending])
          rw [Option.isSome_some, if_pos rfl, Artifact.remove_of_place hp hd .pending he, hentry,
            if_pos rfl]

theorem keepPending_of_free (hne : o.unsent ≠ [])
    (hfree : t.isDirectory (home ++ [pendingDraft]) = false) :
    Tree.entry? (keepPending o out t) (home ++ [Artifact.fileName .pending]) =
      some (.file o.toText.toUTF8) := by
  rw [keepPending_of_unsent hne]
  exact (save_pending hp hd o hfile hfree).1

end Pending

/-- With a directory in the place of their draft, pending reports cannot be saved. -/
theorem save_of_blocked (hp : t.place out = .ok home) (hd : t.isDirectory home = true)
    (hblocked : t.isDirectory (home ++ [pendingDraft]) = true) :
    o.save t (Artifact.path .pending out) = (t, .error .isADirectory) := by
  have hl := Tree.locate_join_of_place hp hd isName_pendingDraft
  rw [Outbox.save, withExtension_pending]
  exact Tree.replaceText_of_directory hl hblocked

theorem kept_keepPending (o : Outbox) (out : String) (t : Tree) :
    Tree.Kept (fun l => l.getLast? = some pendingDraft ∨
        l.getLast? = some (Artifact.fileName .pending)) (fun _ => False) t
      (keepPending o out t) := by
  unfold keepPending
  split
  · exact kept_savePending o out t
  · split
    · exact (Artifact.kept_remove .pending out t).mono (fun _ => Or.inr) fun _ h => h
    · exact .refl t

/-! ## The run -/

section Run

variable {c : RunCommand} {s : Setting} {chosen : Selection Script} {cases : List TestCase}

/-- The files when a run comes to its pending reports. -/
def RunCommand.configured (c : RunCommand) (s : Setting) (chosen : Selection Script)
    (cases : List TestCase) : Tree :=
  let run := c.execute s chosen cases (c.made s)
  Artifact.write .effectiveConfig c.out
    (chosen.effective.withSuiteId run.summary.suiteId).toText run.progress.store

theorem RunCommand.settle_execute (c : RunCommand) (s : Setting) (chosen : Selection Script)
    (cases : List TestCase) : c.settle chosen (c.execute s chosen cases (c.made s)) =
    Artifact.write .summary c.out
      (inDirectory (c.execute s chosen cases (c.made s)).summary chosen.config.reportDir).toText
      (keepPending (c.flushing s chosen cases).2.1 c.out (c.configured s chosen cases)) := by
  rw [← RunCommand.outbox_execute]
  rfl

/-- States do not change the working directory. -/
theorem way_beforeFlush (c : RunCommand) (s : Setting) (chosen : Selection Script)
    (cases : List TestCase) (path : String) :
    (c.beforeFlush s chosen cases).store.way path = s.tree.way path := by
  have hhere : (c.beforeFlush s chosen cases).store.here = s.tree.here :=
    (kept_beforeFlush c s chosen cases).here.trans (Tree.kept_createDirectories s.tree c.out).here
  simp only [Tree.way, Tree.origin, hhere]

theorem kept_flushing (hb : IsPlain s.batchId) : Tree.Kept
    (fun l => l.getLast? = some (draftName s.batchId) ∨ l.getLast? = some (batchName s.batchId))
    (Collector.NewOnWay (c.beforeFlush s chosen cases).store
      (Files.join c.out chosen.config.reportDir))
    (c.beforeFlush s chosen cases).store (c.flushing s chosen cases).2.2 :=
  Outbox.kept_flush _ _ ⟨s.batchId, _⟩ hb _

theorem kept_afterFlush (c : RunCommand) (s : Setting) (chosen : Selection Script)
    (cases : List TestCase) : Tree.Kept OwnName (fun _ => False)
      (c.flushing s chosen cases).2.2 (c.configured s chosen cases) := by
  have hdone : Tree.Kept OwnName (fun _ => False) (c.flushing s chosen cases).2.2
      (c.execute s chosen cases (c.made s)).progress.store :=
    (outletsIn_ownName c.out chosen.config.reportDir).runSuite
  refine hdone.trans ((Artifact.kept_write .effectiveConfig c.out _ _).mono ?_ fun _ h => h)
  intro l hl
  exact ⟨_, by simp, hl⟩

/-- A carrier is as it was when the run comes to its pending reports, unless the way to
the report directory leads through its place and nothing is there. -/
theorem entry_configured (hb : IsPlain s.batchId) {name : String} (hname : name ∈ carriers)
    (hway : Tree.entry? (c.made s) (home ++ [name]) = none →
      home ++ [name] ∉ s.tree.way (Files.join c.out chosen.config.reportDir)) :
    Tree.entry? (c.configured s chosen cases) (home ++ [name]) =
      Tree.entry? (c.made s) (home ++ [name]) := by
  have hown := not_ownName_of_carrier hname home
  have hbefore := kept_beforeFlush c s chosen cases
  have hsame := hbefore.entry _ hown not_false
  rw [(kept_afterFlush c s chosen cases).entry _ hown not_false, (kept_flushing hb).entry, hsame]
  · rintro (hdraft | hbatch)
    · exact ne_of_draftName hname hdraft
    · exact ne_of_batchName hbatch hname rfl
  · rintro ⟨hmem, hnone⟩
    rw [way_beforeFlush] at hmem
    exact hway (hsame ▸ hnone) hmem

theorem standing_configured (hb : IsPlain s.batchId) :
    Standing (c.made s) (c.configured s chosen cases) :=
  ((standing_of_kept (kept_beforeFlush c s chosen cases)).trans
    (standing_of_kept (kept_flushing hb))).trans
      (standing_of_kept (kept_afterFlush c s chosen cases))

theorem standing_settled (c : RunCommand) (s : Setting) (chosen : Selection Script)
    (cases : List TestCase) : Standing (c.configured s chosen cases)
      (c.settle chosen (c.execute s chosen cases (c.made s))) := by
  rw [RunCommand.settle_execute]
  exact (standing_of_kept (kept_keepPending _ c.out _)).trans
    (standing_of_kept (Artifact.kept_write .summary c.out _ _))

theorem standing_settle_execute (hb : IsPlain s.batchId) :
    Standing (c.made s) (c.settle chosen (c.execute s chosen cases (c.made s))) :=
  (standing_configured hb).trans (standing_settled c s chosen cases)

/-- The names of the files that a run writes. -/
def writtenNames (batchId : String) : List String :=
  [stateDraft, Artifact.fileName .state, Artifact.fileName .effectiveConfig, draftName batchId,
    batchName batchId, pendingDraft, Artifact.fileName .pending, Artifact.fileName .summary]

theorem file?_settle (hb : IsPlain s.batchId) {l : Location}
    (hl : ∀ name ∈ writtenNames s.batchId, l.getLast? ≠ some name) :
    (c.settle chosen (c.execute s chosen cases (c.made s))).file? l = (c.made s).file? l := by
  simp only [writtenNames, List.forall_mem_cons] at hl
  obtain ⟨hstateDraft, hstate, hconfig, hdraft, hbatch, hpendingDraft, hpending, hsummary, -⟩ := hl
  have hown : ¬ OwnName l := by
    rintro ⟨name, hname, hlast⟩
    simp only [List.mem_cons, List.not_mem_nil, or_false] at hname
    rcases hname with rfl | rfl | rfl
    · exact hstateDraft hlast
    · exact hstate hlast
    · exact hconfig hlast
  rw [RunCommand.settle_execute, (Artifact.kept_write .summary c.out _ _).file l hsummary,
    (kept_keepPending _ c.out _).file l (not_or.2 ⟨hpendingDraft, hpending⟩),
    (kept_afterFlush c s chosen cases).file l hown,
    (kept_flushing hb).file l (not_or.2 ⟨hdraft, hbatch⟩),
    (kept_beforeFlush c s chosen cases).file l hown]

/-! ## What waits and what is in batches -/

/-- A flush delivers all logs of a run, or all of them wait. -/
theorem RunCommand.flushing_cases (c : RunCommand) (s : Setting) (chosen : Selection Script)
    (cases : List TestCase) :
    (c.flushing s chosen cases).2.1.logs = (c.beforeFlush s chosen cases).outbox.logs ∧
      ((c.flushing s chosen cases).2.1.unsent = [] ∨
        (c.flushing s chosen cases).2.1 = (c.beforeFlush s chosen cases).outbox) := by
  rcases Outbox.outbox_flush (o := (c.beforeFlush s chosen cases).outbox)
    (collectorIn c.out chosen.config.reportDir)
    ⟨s.batchId, (c.beforeFlush s chosen cases).now⟩ (c.beforeFlush s chosen cases).store with
    hall | hnone
  · exact ⟨congrArg Outbox.logs hall, Or.inr hall⟩
  · refine ⟨(congrArg Outbox.logs hnone).trans (Outbox.logs_markSent _), Or.inl ?_⟩
    exact (congrArg Outbox.unsent hnone).trans (Outbox.unsent_markSent _)

variable [SetLimit]

theorem RunCommand.tallied (h : c.prepare s = .ok (chosen, cases)) :
    Run.Tallied (planOf chosen.config chosen.device).abi (c.beforeFlush s chosen cases)
      (c.execute s chosen cases (c.made s)).summary.results := by
  obtain ⟨hlittle, hids⟩ := Suite.casesOf_spec (casesOf_of_prepare h)
  exact Run.tallied_reporting _ _ _ _ _ _ _ hlittle hids

/-- Between a run's beginning and its end, a log comes to be in a batch just when the
run delivers it. -/
theorem inBatch_settle (h : c.prepare s = .ok (chosen, cases)) (hf : Fresh (c.made s) s.batchId)
    (htime : (c.beforeFlush s chosen cases).bench.clock ≤ Timestamp.lastMillis) (log : Log) :
    InBatch (c.settle chosen (c.execute s chosen cases (c.made s))) log ↔
      InBatch (c.made s) log ∨ (c.flushing s chosen cases).2.1.unsent = [] ∧
        log ∈ (c.beforeFlush s chosen cases).outbox.logs := by
  have htally := RunCommand.tallied h
  have hsound := htally.sound.mono htime
  have hunsent := Outbox.unsent_of_waiting htally.waiting
  have hbefore := kept_beforeFlush c s chosen cases
  have hfresh : Fresh (c.beforeFlush s chosen cases).store s.batchId := by
    apply hf.of_file
    intro l hl
    apply hbefore.file
    intro hown
    obtain ⟨name, hlast, hhead⟩ := hown.head
    rw [hl] at hlast
    exact Report.batchName_ne hhead (Option.some.inj hlast)
  have hflush : InBatch (c.flushing s chosen cases).2.2 log ↔ _ :=
    inBatch_flush ⟨s.batchId, (c.beforeFlush s chosen cases).now⟩ hfresh
      (Timestamp.By.valid ⟨_, htime, rfl⟩) (by
        intro log hlog
        rw [hunsent] at hlog
        obtain ⟨e, he, rfl⟩ := List.mem_map.1 hlog
        exact hsound.wellFormed e he)
  rw [hunsent, inBatch_of_names hbefore fun l hl => hl.head] at hflush
  rw [RunCommand.settle_execute,
    inBatch_of_names (Artifact.kept_write .summary c.out _ _) fun l hl => ⟨_, hl, by decide⟩,
    inBatch_of_names (kept_keepPending _ c.out _),
    inBatch_of_names (kept_afterFlush c s chosen cases) fun l hl => hl.head]
  · exact hflush
  · rintro l (hl | hl)
    · exact ⟨_, hl, by decide⟩
    · exact ⟨_, hl, by decide⟩

theorem readable_flushing (h : c.prepare s = .ok (chosen, cases))
    (htime : (c.beforeFlush s chosen cases).bench.clock ≤ Timestamp.lastMillis)
    (hne : (c.flushing s chosen cases).2.1.unsent ≠ []) :
    Outbox.ofText? (c.flushing s chosen cases).2.1.toText =
      some (c.flushing s chosen cases).2.1 := by
  have htally := RunCommand.tallied h
  rcases (RunCommand.flushing_cases c s chosen cases).2 with hnil | hsame
  · exact absurd hnil hne
  · rw [hsame]
    exact (htally.sound.mono htime).wellFormed.ofText?_toText htally.filed

/-- The pending reports that a run leaves where there was a file or nothing. -/
theorem pending_settle (h : c.prepare s = .ok (chosen, cases)) (hb : IsPlain s.batchId)
    (htime : (c.beforeFlush s chosen cases).bench.clock ≤ Timestamp.lastMillis)
    (hp : (c.made s).place c.out = .ok home) (hd : (c.made s).isDirectory home = true)
    (hfile : (c.made s).isDirectory (home ++ [Artifact.fileName .pending]) = false)
    (hway : Tree.entry? (c.made s) (home ++ [Artifact.fileName .pending]) = none →
      home ++ [Artifact.fileName .pending] ∉
        s.tree.way (Files.join c.out chosen.config.reportDir)) :
    let o := (c.flushing s chosen cases).2.1
    let t := c.settle chosen (c.execute s chosen cases (c.made s))
    (o.unsent = [] → t.entry? (home ++ [Artifact.fileName .pending]) = none) ∧
      (o.unsent ≠ [] → Outbox.load t (Artifact.path .pending c.out) = .ok o ∨
        (c.configured s chosen cases).isDirectory (home ++ [pendingDraft]) = true ∧
          t.entry? (home ++ [Artifact.fileName .pending]) =
            Tree.entry? (c.made s) (home ++ [Artifact.fileName .pending])) := by
  intro o t
  have hstanding : Standing (c.made s) (c.configured s chosen cases) := standing_configured hb
  have hlast : Standing (c.made s) t := standing_settle_execute hb
  have hp' := hstanding.place hp
  have hd' := hstanding.directory home hd
  have hsame : Tree.entry? (c.configured s chosen cases) (home ++ [Artifact.fileName .pending]) =
      Tree.entry? (c.made s) (home ++ [Artifact.fileName .pending]) :=
    entry_configured hb pending_mem_carriers hway
  have hfile' := (Tree.isDirectory_congr hsame).trans hfile
  have hkept : t.entry? (home ++ [Artifact.fileName .pending]) =
      Tree.entry? (keepPending o c.out (c.configured s chosen cases))
        (home ++ [Artifact.fileName .pending]) := by
    have ht : t = Artifact.write .summary c.out _ _ := RunCommand.settle_execute c s chosen cases
    rw [ht]
    apply (Artifact.kept_write .summary c.out _ _).entry _ _ not_false
    rw [List.getLast?_concat]
    decide
  refine ⟨?_, ?_⟩
  · intro hnil
    rw [hkept]
    exact keepPending_of_nil hp' hd' hfile' hnil
  · intro hne
    cases hdraft : (c.configured s chosen cases).isDirectory (home ++ [pendingDraft]) with
    | false =>
        left
        refine load_pending (hlast.place hp) (hlast.directory home hd) ?_
          (readable_flushing h htime hne)
        rw [hkept]
        exact keepPending_of_free hp' hd' hfile' hne hdraft
    | true =>
        right
        refine ⟨rfl, ?_⟩
        rw [hkept, keepPending_of_unsent hne, save_of_blocked hp' hd' hdraft, hsame]

section Writable

variable (h : c.prepare s = .ok (chosen, cases)) (hb : IsPlain s.batchId)
  (htime : (c.beforeFlush s chosen cases).bench.clock ≤ Timestamp.lastMillis)
  (hw : Writable (c.made s) c.out home) (ha : Apart s.tree c.out home chosen.config.reportDir)

include h hb htime hw ha

theorem load_settle (hne : (c.flushing s chosen cases).2.1.unsent ≠ []) :
    Outbox.load (c.settle chosen (c.execute s chosen cases (c.made s)))
      (Artifact.path .pending c.out) = .ok (c.flushing s chosen cases).2.1 := by
  obtain ⟨-, hkept⟩ := pending_settle h hb htime hw.place hw.directory
    (hw.free _ pending_mem_carriers) fun _ => ha _ pending_mem_carriers
  rcases hkept hne with hload | ⟨hblocked, -⟩
  · exact hload
  · have hdraft : Tree.entry? (c.configured s chosen cases) (home ++ [pendingDraft]) =
        Tree.entry? (c.made s) (home ++ [pendingDraft]) :=
      entry_configured hb draft_mem_carriers fun _ => ha _ draft_mem_carriers
    rw [Tree.isDirectory_congr hdraft, hw.free _ draft_mem_carriers] at hblocked
    cases hblocked

/-- What waits after a run is its own. -/
theorem waitingIn_settle :
    waitingIn (c.settle chosen (c.execute s chosen cases (c.made s))) c.out =
      (c.flushing s chosen cases).2.1.unsent := by
  obtain ⟨hgone, -⟩ := pending_settle h hb htime hw.place hw.directory
    (hw.free _ pending_mem_carriers) fun _ => ha _ pending_mem_carriers
  have hlast : Standing (c.made s) (c.settle chosen (c.execute s chosen cases (c.made s))) :=
    standing_settle_execute hb
  by_cases hnil : (c.flushing s chosen cases).2.1.unsent = []
  · rw [waitingIn_of_gone (hlast.place hw.place) (hlast.directory home hw.directory)
      (hgone hnil), hnil]
  · rw [waitingIn, load_settle h hb htime hw ha hnil]

end Writable

end Run

end Compliance.Cli
