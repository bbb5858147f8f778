import Compliance.Proofs.Cli.Custody
import Compliance.Proofs.Run.Logs

/-!
# Handing over the reports of a run

A run records its states beside the reports.  Its flush hands over all logs or
none, and then the artifacts are written: the logs that were not taken wait in
the pending reports, and the summary says how many.
-/

namespace Compliance.Cli

open Compliance.Check (TestCase)
open Compliance.Files (Location Tree)
open Compliance.Report (FlushReceipt Log Outbox ReportError batchName)
open Compliance.Run (Delivery Summary)
open Compliance.Time (Timestamp)

/-! ## After a run -/

section Run

variable {t t' : Tree} {out : String} {home : Location} {ids : List String}
  {logs waiting : List Log}

/-- States are recorded beside the reports. -/
theorem outletsIn_respects (out reportDir : String) (home : Location) :
    (outletsIn out reportDir).Respects (Beside home) where
  refl t := ⟨rfl, fun _ _ => rfl, fun _ _ _ => rfl, fun _ _ h => h, fun _ h => h⟩
  trans := Beside.trans
  record s t := by
    apply beside_of_names (kept_saveState s out t)
    rintro l (hl | hl)
    · exact ⟨_, hl, by decide, by decide⟩
    · exact ⟨_, hl, by decide, by decide⟩

/-- The names of states and of the configuration. -/
def OwnName (l : Location) : Prop :=
  ∃ name ∈ [stateDraft, Artifact.fileName .state, Artifact.fileName .effectiveConfig],
    l.getLast? = some name

theorem not_ownName_of_carrier {name : String} (hname : name ∈ carriers) (home : Location) :
    ¬ OwnName (home ++ [name]) := by
  have hother : ∀ name ∈ carriers, name ∉ [stateDraft, Artifact.fileName .state,
      Artifact.fileName .effectiveConfig] := by decide
  rintro ⟨own, hown, hl⟩
  rw [List.getLast?_concat, Option.some.injEq] at hl
  exact hother name hname (hl ▸ hown)

theorem OwnName.head {l : Location} (h : OwnName l) :
    ∃ name, l.getLast? = some name ∧ name.toList.head? ≠ some 'b' := by
  have hhead : ∀ name ∈ [stateDraft, Artifact.fileName .state,
      Artifact.fileName .effectiveConfig], name.toList.head? ≠ some 'b' := by decide
  obtain ⟨name, hname, hl⟩ := h
  exact ⟨name, hl, hhead name hname⟩

theorem outletsIn_ownName (out reportDir : String) :
    (outletsIn out reportDir).Respects (Tree.Kept OwnName fun _ => False) where
  refl t := .refl t
  trans h h' := h.trans h'
  record state t := by
    -- Comparing the record with the saving as they stand would unfold the saving.
    simp only [outletsIn]
    refine (kept_saveState state out t).mono ?_ fun _ h => h
    rintro l (hl | hl)
    · exact ⟨_, by simp, hl⟩
    · exact ⟨_, by simp, hl⟩

theorem beside_effectiveConfig (out text : String) (t : Tree) (home : Location) :
    Beside home t (Artifact.write .effectiveConfig out text t) :=
  beside_of_names (Artifact.kept_write .effectiveConfig out text t) fun _ hl =>
    ⟨_, hl, by decide, by decide⟩

theorem keepPending_of_unsent {o : Outbox} (h : o.unsent ≠ []) (out : String) (t : Tree) :
    keepPending o out t = (o.save t (Artifact.path .pending out)).1 := by
  have hpos : 0 < o.unsentCount := List.length_pos_of_ne_nil h
  rw [keepPending, if_pos hpos]

theorem keepPending_of_gone {o : Outbox} (h : o.unsent = []) (hw : Writable t out home)
    (gone : t.entry? (home ++ [Artifact.fileName .pending]) = none) :
    keepPending o out t = t := by
  have hzero : ¬ 0 < o.unsentCount := by simp [Outbox.unsentCount, h]
  have hexists := Artifact.exists?_path hw.place hw.directory .pending
  rw [gone] at hexists
  rw [keepPending, if_neg hzero, hexists]
  rfl

/-- A summary that is written last completes the artifacts. -/
theorem kempt_of_summary (hw : Writable t out home) (hc : Custody t home ids logs waiting)
    {m : Summary} (hm : m.Sound) (hp : m.report.pending = waiting.length) :
    Kempt (Artifact.write .summary out m.toText t) out home ids logs waiting := by
  obtain ⟨hwritten, hkept, hw'⟩ := hw.summary m.toText
  refine ⟨hw', hc.kept ?_ ?_, m, hwritten, hm, hp⟩
  · exact hkept.entry _ (carriers_ne (by decide)) not_false
  · exact fun id _ l hl => hkept.file l (ne_of_batchName hl summary_mem_carriers)

/-- What the outbox of a run looks like before and after its flush, and where
the logs are then. -/
inductive Flushed (home : Location) (batchId : String) (logs : List Log) (t : Tree) :
    Outbox → List Log → Prop
  | waiting (o : Outbox) (some : logs ≠ []) (readable : Outbox.ofText? o.toText = .some o)
      (unsent : o.unsent = logs) (only : OnlyBatches t [batchId] fun _ => False) :
      Flushed home batchId logs t o logs
  | done (o : Outbox) (unsent : o.unsent = []) (custody : Custody t home [batchId] logs []) :
      Flushed home batchId logs t o []

theorem Flushed.waiting_eq {batchId : String} {o : Outbox}
    (h : Flushed home batchId logs t o waiting) : waiting = o.unsent := by
  cases h with
  | waiting hsome readable unsent only => exact unsent.symm
  | done unsent custody => exact unsent.symm

theorem Flushed.beside {batchId : String} {o : Outbox}
    (h : Flushed home batchId logs t o waiting) (hb : Beside home t t') :
    Flushed home batchId logs t' o waiting := by
  cases h with
  | waiting hsome readable unsent only =>
      exact .waiting o hsome readable unsent
        (only.kept fun id _ l hl _ => hb.batches id l hl)
  | done unsent custody => exact .done o unsent (hb.custody custody)

/-- The pending reports of a run are written or not needed. -/
theorem Flushed.keep {batchId : String} {o : Outbox}
    (h : Flushed home batchId logs t o waiting) (hw : Writable t out home)
    (gone : t.entry? (home ++ [Artifact.fileName .pending]) = none) :
    Writable (keepPending o out t) out home ∧
      Custody (keepPending o out t) home [batchId] logs waiting := by
  cases h with
  | waiting hsome readable unsent only =>
      rw [keepPending_of_unsent (unsent ▸ hsome)]
      obtain ⟨hwritten, hkept, hw'⟩ := hw.save o
      refine ⟨hw', .waiting o ⟨hsome, hwritten, readable, unsent, ?_⟩⟩
      refine only.kept fun id _ l hl _ => hkept.file l ?_
      rintro (hdraft | hpend)
      · exact ne_of_batchName hl draft_mem_carriers hdraft
      · exact ne_of_batchName hl pending_mem_carriers hpend
  | done unsent custody =>
      rw [keepPending_of_gone unsent hw gone]
      exact ⟨hw, custody⟩

/-- The first flush hands over all logs or leaves all of them, if there are
any. -/
theorem flushed_of_unsent {o o' : Outbox} {reportDir batchId : String} {ms : Nat}
    {flushed : Except ReportError FlushReceipt} (hw : Writable t out home)
    (gone : t.entry? (home ++ [Artifact.fileName .pending]) = none)
    (hread : Outbox.ofText? o.toText = some o) (hf : Fresh t batchId)
    (ha : Apart t out home reportDir) (htime : ms ≤ Timestamp.lastMillis)
    (h : o.flush (collectorIn out reportDir) ⟨batchId, .ofMillis ms⟩ t = (flushed, o', t')) :
    Writable t' out home ∧
      t'.entry? (home ++ [Artifact.fileName .pending]) = none ∧
      ∃ waiting, Flushed home batchId o.unsent t' o' waiting ∧
        o'.unsentCount = waiting.length ∧ o'.logs = o.logs := by
  have honly : OnlyBatches t [batchId] fun _ => False :=
    OnlyBatches.cons (by simp [OnlyBatches]) fun l hl _ => hf.unused l hl
  rcases Outbox.flush_cases (o := o) (collectorIn out reportDir) ⟨batchId, .ofMillis ms⟩ t with
    ⟨hnil, hflush⟩ | ⟨hne, ⟨e, u, hacc, hflush⟩ | ⟨a, u, hacc, hflush⟩⟩
  · cases hflush.symm.trans h
    refine ⟨hw, gone, [], .done o hnil (.nothing hnil honly gone), ?_, rfl⟩
    simp [Outbox.unsentCount, hnil]
  · cases hflush.symm.trans h
    have hbeside := refused_beside hf ha hacc
    refine ⟨hbeside.writable hw, ?_, o.unsent, .waiting o hne hread rfl ?_, rfl, rfl⟩
    · rw [hbeside.carriers _ pending_mem_carriers]
      exact gone
    · exact honly.kept fun id _ l hl _ => hbeside.batches id l hl
  · cases hflush.symm.trans h
    obtain ⟨k, hwritten, hcarriers, hother, hw'⟩ := accepted_beside hw hf ha hacc
    have hgone : t'.entry? (home ++ [Artifact.fileName .pending]) = none := by
      rw [hcarriers _ pending_mem_carriers]
      exact gone
    have hbatched : Batched t' [batchId] o.unsent (k ++ [batchName batchId]) batchId
        (.ofMillis ms) :=
      batched_of_accepted (by simp) ⟨ms, htime, rfl⟩ hwritten hother hf
        (by simp [OnlyBatches])
    refine ⟨hw', hgone, [], .done _ o.unsent_markSent
      (.batched _ _ _ hne hbatched hgone), ?_, o.logs_markSent⟩
    simp [Outbox.unsentCount]

end Run

/-! ## What a suite leaves -/

section Suite

open Compliance.Check (Bench)
open Compliance.Device (Profile)
open Compliance.Run (Naming Outlets Plan finalFlush reporting runSuite)

/-- A suite of registry checks with its reports below a writable directory
without pending reports. -/
structure Starts (out : String) (home : Location) (reportDir : String) (o : Outlets Tree)
    (plan : Plan) (device : Profile) (n : Naming) (cases : List TestCase) (b : Bench)
    (t : Tree) : Prop where
  collector : o.collector = collectorIn out reportDir
  respects : o.Respects (Beside home)
  writable : Writable t out home
  gone : t.entry? (home ++ [Artifact.fileName .pending]) = none
  fresh : Fresh t n.batchId
  apart : Apart t out home reportDir
  little : ∀ c ∈ cases, c.execute.AtMost 2
  ids : (cases.map (·.id)).Nodup
  few : cases.length < 2 ^ 64
  inTime : (runSuite o plan device n cases b t).progress.bench.clock ≤ Timestamp.lastMillis

variable {out reportDir : String} {home : Location} {o : Outlets Tree} {plan : Plan}
  {device : Profile} {n : Naming} {cases : List TestCase} {b : Bench} {t : Tree}
  (h : Starts out home reportDir o plan device n cases b t)

include h

theorem Starts.clock :
    (reporting o plan device n cases b t).bench.clock ≤ Timestamp.lastMillis := by
  rw [← Run.bench_runSuite]
  exact h.inTime

theorem Starts.tallied : Run.Tallied plan.abi (reporting o plan device n cases b t)
    (runSuite o plan device n cases b t).summary.results :=
  Run.tallied_reporting o plan device n cases b t h.little h.ids

theorem Starts.sound :
    (reporting o plan device n cases b t).outbox.Sound Timestamp.lastMillis :=
  h.tallied.sound.mono h.clock

/-- What the flush at the end of a suite leaves. -/
theorem Starts.flushed : ∃ waiting,
    Flushed home n.batchId (runSuite o plan device n cases b t).progress.outbox.logs
      (runSuite o plan device n cases b t).progress.store
      (runSuite o plan device n cases b t).progress.outbox waiting ∧
    Writable (runSuite o plan device n cases b t).progress.store out home ∧
    (runSuite o plan device n cases b t).progress.store.entry?
      (home ++ [Artifact.fileName .pending]) = none ∧
    (runSuite o plan device n cases b t).summary.Sound ∧
    (runSuite o plan device n cases b t).summary.report.pending = waiting.length ∧
    (runSuite o plan device n cases b t).progress.outbox.logs =
      (reporting o plan device n cases b t).outbox.logs := by
  have hbefore : Beside home t (reporting o plan device n cases b t).store :=
    h.respects.reporting
  have hfresh := h.fresh.of_file fun l hl => hbefore.batches n.batchId l hl
  have hgone : (reporting o plan device n cases b t).store.entry?
      (home ++ [Artifact.fileName .pending]) = none := by
    rw [hbefore.carriers _ pending_mem_carriers]
    exact h.gone
  have hread := h.sound.wellFormed.ofText?_toText h.tallied.filed
  have hflush : (reporting o plan device n cases b t).outbox.flush (collectorIn out reportDir)
      ⟨n.batchId, .ofMillis (reporting o plan device n cases b t).bench.clock⟩
      (reporting o plan device n cases b t).store = finalFlush o plan device n cases b t := by
    rw [← h.collector]
    rfl
  generalize hff : finalFlush o plan device n cases b t = ff at hflush
  obtain ⟨flushed, outbox, store⟩ := ff
  obtain ⟨hw, hgone', waiting, hflushed, hcount, hlogs⟩ :=
    flushed_of_unsent (hbefore.writable h.writable) hgone hread hfresh
      (h.apart.of_here hbefore.here) h.clock hflush
  have hafter : Beside home (finalFlush o plan device n cases b t).2.2
      (runSuite o plan device n cases b t).progress.store := h.respects.runSuite
  have houtbox := Run.outbox_runSuite o plan device n cases b t
  rw [hff] at hafter houtbox
  have hunsent := Outbox.unsent_of_waiting h.tallied.waiting
  refine ⟨waiting, ?_, hafter.writable hw, ?_, ?_, ?_, ?_⟩
  · rw [houtbox, hlogs, ← hunsent]
    exact hflushed.beside hafter
  · rw [hafter.carriers _ pending_mem_carriers]
    exact hgone'
  · exact Run.sound_runSuite o plan device n cases b t h.little h.ids h.few h.clock
  · rw [Run.summary_runSuite, hff]
    exact (Delivery.none.pending_afterFlush _ _).trans hcount
  · rw [houtbox, hlogs]

end Suite

end Compliance.Cli
