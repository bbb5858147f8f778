import Mathlib
import Compliance.Proofs.Cli.Handover
import Compliance.Proofs.Cli.Selections

/-!
# Conservation of reports

A run files one log for every test that recorded something.  From then on, and
through any flushes, each of these logs is in exactly one place, unchanged.
-/

namespace Compliance.Cli

open Compliance.Check (Bench Context Discovery TestCase)
open Compliance.Device (Script)
open Compliance.Files (Location Tree)
open Compliance.Report (Batch FlushReceipt IsPlain Log Outbox ReportError batchName)
open Compliance.Run (Naming Outlets Plan Progress Summary SuiteRun)
open Compliance.Suite (Config Effective Entry SetLimit mergeLayers)
open Compliance.Time (Timestamp)

/-! ## Commands one after the other -/

/-- The files a run starts from, its output directory made. -/
def RunCommand.made (c : RunCommand) (s : Setting) : Tree :=
  (s.tree.createDirectories c.out).1

/-- The run as it is when its reports are flushed. -/
def RunCommand.beforeFlush (c : RunCommand) (s : Setting) (chosen : Selection Script)
    (cases : List TestCase) : Progress Tree :=
  Run.reporting (outletsIn c.out chosen.config.reportDir)
    (planOf chosen.config chosen.device) chosen.device.profile
    ⟨s.suiteId, s.batchId, 0⟩ cases (benchOf s chosen.device) (c.made s)

theorem RunCommand.bench_execute (c : RunCommand) (s : Setting) (chosen : Selection Script)
    (cases : List TestCase) : (c.execute s chosen cases (c.made s)).progress.bench =
      (c.beforeFlush s chosen cases).bench :=
  Run.bench_runSuite ..

/-- The flush at the end of a run. -/
def RunCommand.flushing (c : RunCommand) (s : Setting) (chosen : Selection Script)
    (cases : List TestCase) : Except ReportError FlushReceipt × Outbox × Tree :=
  let p := c.beforeFlush s chosen cases
  p.outbox.flush (collectorIn c.out chosen.config.reportDir) ⟨s.batchId, p.now⟩ p.store

theorem RunCommand.outbox_execute (c : RunCommand) (s : Setting) (chosen : Selection Script)
    (cases : List TestCase) : (c.execute s chosen cases (c.made s)).progress.outbox =
      (c.flushing s chosen cases).2.1 :=
  Run.outbox_runSuite ..

theorem kept_beforeFlush (c : RunCommand) (s : Setting) (chosen : Selection Script)
    (cases : List TestCase) : Tree.Kept OwnName (fun _ => False) (c.made s)
      (c.beforeFlush s chosen cases).store :=
  (outletsIn_ownName c.out chosen.config.reportDir).reporting

/-- A run that gets past its configuration.  Its output directory can be written
to and holds no pending reports, its batch id is new, and it ends while its times
can be written. -/
structure Begins [SetLimit] (c : RunCommand) (s : Setting) (chosen : Selection Script)
    (cases : List TestCase) (home : Location) : Prop where
  prepared : c.prepare s = .ok (chosen, cases)
  created : (s.tree.createDirectories c.out).2 = .ok ()
  writable : Writable (c.made s) c.out home
  unsent : (c.made s).exists? (Artifact.path .pending c.out) = false
  fresh : Fresh s.tree s.batchId
  inTime : (c.execute s chosen cases (c.made s)).progress.bench.clock ≤ Timestamp.lastMillis
  few : cases.length < 2 ^ 64

/-- Between two commands anything may happen to the files, but the output
directory stays where it is, nobody touches the reports in it and the summary,
and nobody touches a batch file or makes one. -/
structure LeftAlone (out : String) (home : Location) (ids : List String)
    (t t' : Tree) : Prop where
  writable : Writable t' out home
  summary : t'.entry? (home ++ [Artifact.fileName .summary]) =
    t.entry? (home ++ [Artifact.fileName .summary])
  pending : t'.entry? (home ++ [Artifact.fileName .pending]) =
    t.entry? (home ++ [Artifact.fileName .pending])
  batches : ∀ id ∈ ids, ∀ l, l.getLast? = some (batchName id) → t'.file? l = t.file? l

/-- A flush of the output directory, with a new batch id, to a report directory
apart from the artifacts.  Whether batches can be written there is left open. -/
structure Follows (out : String) (home : Location) (ids : List String) (t : Tree)
    (f : FlushCommand) (s : Setting) : Prop where
  same : f.out = out
  alone : LeftAlone out home ids t s.tree
  fresh : Fresh s.tree s.batchId
  apart : Apart s.tree out home (f.reportDirIn s.tree)
  inTime : s.clock ≤ Timestamp.lastMillis

/-- The files after a run and any number of flushes, with the batch ids that
these commands were given. -/
inductive Reaches [SetLimit] (c : RunCommand) (s : Setting) (home : Location) :
    List String → Tree → Prop
  | run : Reaches c s home [s.batchId] (c.perform s).tree
  | flush {ids : List String} {t : Tree} (f : FlushCommand) (s' : Setting)
      (h : Reaches c s home ids t) (hf : Follows c.out home ids t f s') :
      Reaches c s home (s'.batchId :: ids) (f.perform s').tree

/-! ## Where a log is -/

/-- The batch that a file holds. -/
def batchAt? (t : Tree) (l : Location) : Option Batch :=
  (t.file? l).bind fun content => (String.fromUTF8? content).bind Batch.ofText?

/-- The logs that wait in the pending reports of an output directory. -/
def waitingIn (t : Tree) (out : String) : List Log :=
  match Outbox.load t (Artifact.path .pending out) with
  | .ok o => o.unsent
  | .error _ => []

inductive Place where
  | pending
  | batch (l : Location)

/-- A log waits, or it is in a batch file with one of the ids and an intact
digest. -/
def Keeps (t : Tree) (out : String) (ids : List String) (log : Log) : Place → Prop
  | .pending => log ∈ waitingIn t out
  | .batch l => ∃ id ∈ ids, l.getLast? = some (batchName id) ∧
      ∃ b, batchAt? t l = some b ∧ b.verifies = true ∧ log ∈ b.logs

/-- Every log is in exactly one place, the pending reports are there just when a
log waits, and the summary says how many do. -/
structure Conserved (t : Tree) (out : String) (ids : List String) (logs : List Log) :
    Prop where
  place : ∀ log ∈ logs, ∃! p, Keeps t out ids log p
  known : (waitingIn t out).Sublist logs
  pending : t.exists? (Artifact.path .pending out) = true ↔
    ∃ log ∈ logs, Keeps t out ids log .pending
  counted : ∃ m, summaryIn t out = some m ∧
    m.report.pending = (waitingIn t out).length

/-- A flush that fails exits with 30 and leaves the logs as they were; one that
delivers exits with 0 and removes the pending reports; without pending reports
nothing changes. -/
structure FlushLaw (f : FlushCommand) (s : Setting) : Prop where
  exit : (f.perform s).exit = 0 ∨ (f.perform s).exit = 30
  failed : (f.perform s).exit = 30 → Outbox.load (f.perform s).tree
      (Artifact.path .pending f.out) = Outbox.load s.tree (Artifact.path .pending f.out)
  delivered : (f.perform s).exit = 0 →
    (f.perform s).tree.exists? (Artifact.path .pending f.out) = false
  idle : s.tree.exists? (Artifact.path .pending f.out) = false →
    (f.perform s).exit = 0 ∧ (f.perform s).tree = s.tree

section Commands

variable {c : RunCommand} {s : Setting} {chosen : Selection Script} {cases : List TestCase}
  {home : Location}

theorem sound_inDirectory {m : Summary} (hm : m.Sound) (reportDir : String) :
    (inDirectory m reportDir).Sound := by
  refine ⟨hm.version, hm.created, hm.duration, hm.results, hm.few,
    ⟨hm.report.sent, hm.report.pending⟩, ?_⟩
  have hsame := hm.recomputed
  rw [← hsame]
  rfl

/-- The artifacts of a run keep account of its logs. -/
theorem kempt_settle {run : SuiteRun Tree} {waiting : List Log}
    (hf : Flushed home s.batchId run.progress.outbox.logs run.progress.store
      run.progress.outbox waiting)
    (hw : Writable run.progress.store c.out home)
    (gone : run.progress.store.entry? (home ++ [Artifact.fileName .pending]) = none)
    (hm : run.summary.Sound) (hp : run.summary.report.pending = waiting.length) :
    Kempt (c.settle chosen run) c.out home [s.batchId] run.progress.outbox.logs waiting := by
  unfold RunCommand.settle
  have hbeside := beside_effectiveConfig c.out
    (chosen.effective.withSuiteId run.summary.suiteId).toText run.progress.store home
  simp only
  generalize Artifact.write .effectiveConfig c.out
    (chosen.effective.withSuiteId run.summary.suiteId).toText run.progress.store = t
    at hbeside ⊢
  have hgone : t.entry? (home ++ [Artifact.fileName .pending]) = none := by
    rw [hbeside.carriers _ pending_mem_carriers]
    exact gone
  obtain ⟨hw', hcustody⟩ := (hf.beside hbeside).keep (hbeside.writable hw) hgone
  exact kempt_of_summary hw' hcustody (sound_inDirectory hm chosen.config.reportDir) hp

variable [SetLimit]

theorem casesOf_of_prepare (h : c.prepare s = .ok (chosen, cases)) :
    Suite.casesOf chosen.entries = .ok cases := by
  obtain ⟨selection, -, h⟩ := bind_eq_ok.1 h
  obtain ⟨found, hfound, h⟩ := bind_eq_ok.1 h
  cases h
  exact mapError_eq_ok.1 hfound

theorem Begins.starts (h : Begins c s chosen cases home)
    (ha : Apart s.tree c.out home chosen.config.reportDir) :
    Starts c.out home chosen.config.reportDir (outletsIn c.out chosen.config.reportDir)
      (planOf chosen.config chosen.device) chosen.device.profile ⟨s.suiteId, s.batchId, 0⟩
      cases (benchOf s chosen.device) (c.made s) := by
  obtain ⟨hlittle, hids⟩ := Suite.casesOf_spec (casesOf_of_prepare h.prepared)
  have hmade := Tree.kept_createDirectories s.tree c.out
  have hgone : Tree.entry? (c.made s) (home ++ [Artifact.fileName .pending]) = none := by
    have hexists := Artifact.exists?_path h.writable.place h.writable.directory .pending
    rw [h.unsent] at hexists
    simpa using hexists.symm
  exact {
    collector := rfl
    respects := outletsIn_respects c.out chosen.config.reportDir home
    writable := h.writable
    gone := hgone
    fresh := h.fresh.of_file fun l _ => hmade.file l not_false
    apart := ha.of_here hmade.here
    little := hlittle
    ids := hids
    few := h.few
    inTime := h.inTime }

theorem RunCommand.tree_perform (hprepared : c.prepare s = .ok (chosen, cases))
    (hcreated : (s.tree.createDirectories c.out).2 = .ok ()) :
    (c.perform s).tree = c.settle chosen (c.execute s chosen cases (c.made s)) := by
  have hmade : s.tree.createDirectories c.out = (c.made s, .ok ()) :=
    Prod.ext rfl hcreated
  simp only [RunCommand.perform, hprepared, hmade]

theorem Begins.perform (h : Begins c s chosen cases home) :
    (c.perform s).tree = c.settle chosen (c.execute s chosen cases (c.made s)) :=
  RunCommand.tree_perform h.prepared h.created

section Apart

variable (h : Begins c s chosen cases home)
  (ha : Apart s.tree c.out home chosen.config.reportDir)

include h ha

/-- A run ends with the logs that it could not deliver in the pending reports. -/
theorem Begins.kempt :
    let outbox := (c.execute s chosen cases (c.made s)).progress.outbox
    Kempt (c.perform s).tree c.out home [s.batchId] outbox.logs outbox.unsent := by
  intro outbox
  obtain ⟨waiting, hf, hw, gone, hm, hp, -⟩ := (h.starts ha).flushed
  have hwaiting : waiting = outbox.unsent := hf.waiting_eq
  rw [h.perform, ← hwaiting]
  exact kempt_settle hf hw gone hm hp

theorem Begins.sound :
    ∀ log ∈ (c.execute s chosen cases (c.made s)).progress.outbox.logs,
      log.Sound Timestamp.lastMillis := by
  obtain ⟨-, -, -, -, -, -, hlogs⟩ := (h.starts ha).flushed
  intro log hlog
  have hmem : log ∈ (c.execute s chosen cases (c.made s)).progress.outbox.logs := hlog
  unfold RunCommand.execute at hmem
  rw [hlogs] at hmem
  obtain ⟨e, he, rfl⟩ := List.mem_map.1 hmem
  exact (h.starts ha).sound e he

/-- The logs of a run are those of the tests whose results have metrics. -/
theorem Begins.tally :
    let run := c.execute s chosen cases (c.made s)
    (run.progress.outbox.logs.map fun log => (log.key, log.size)).Perm
      ((run.summary.results.filter fun r => 0 < r.metrics).map fun r =>
        (r.id.key (planOf chosen.config chosen.device).abi, r.metrics)) := by
  obtain ⟨-, -, -, -, -, -, hlogs⟩ := (h.starts ha).flushed
  have htally := (h.starts ha).tallied.tally
  rw [← hlogs] at htally
  exact htally

end Apart

end Commands

/-! ## Steps -/

section Steps

variable {t t' : Tree} {out : String} {home : Location} {ids : List String}
  {logs waiting : List Log} {f : FlushCommand} {s : Setting}

theorem Kempt.leftAlone (h : Kempt t out home ids logs waiting)
    (ha : LeftAlone out home ids t t') : Kempt t' out home ids logs waiting := by
  obtain ⟨m, hm⟩ := h.summary
  exact ⟨ha.writable, h.custody.kept ha.pending ha.batches, m,
    ha.summary.trans hm.written, hm.sound, hm.pending⟩

theorem Kempt.exists?_pending (h : Kempt t out home ids logs []) :
    t.exists? (Artifact.path .pending out) = false := by
  rw [Artifact.exists?_path h.writable.place h.writable.directory .pending, h.custody.gone]
  rfl

/-- A flush hands over what waits or leaves it. -/
theorem Kempt.flush (h : Kempt s.tree f.out home ids logs waiting)
    (hfresh : Fresh s.tree s.batchId) (hapart : Apart s.tree f.out home (f.reportDirIn s.tree))
    (htime : s.clock ≤ Timestamp.lastMillis) :
    FlushLaw f s ∧ ∃ waiting', Kempt (f.perform s).tree f.out home (s.batchId :: ids) logs
      waiting' := by
  obtain ⟨m, hm⟩ := h.summary
  by_cases hwaits : waiting = []
  · subst hwaits
    obtain ⟨hexit, htree⟩ := perform_of_gone h.writable h.custody.gone
    refine ⟨⟨Or.inl hexit, ?_, ?_, fun _ => ⟨hexit, htree⟩⟩, [], ?_⟩
    · rw [hexit]
      simp
    · rw [htree]
      exact fun _ => h.exists?_pending
    · rw [htree]
      exact ⟨h.writable, h.custody.cons hfresh, m, hm⟩
  · obtain ⟨o, ho, rfl⟩ := h.custody.waiting_of_ne hwaits
    cases hacc : (collectorIn f.out (f.reportDirIn s.tree)).accept
        (Batch.assemble s.batchId s.now o.unsent) s.tree with
    | mk answer t' =>
        have hthere : s.tree.exists? (Artifact.path .pending f.out) = true := by
          rw [Artifact.exists?_path h.writable.place h.writable.directory .pending, ho.written]
          rfl
        cases answer with
        | error e =>
            obtain ⟨hexit, hkempt, hload⟩ :=
              flush_refused h.writable ho hm hfresh hapart hacc
            refine ⟨⟨Or.inr hexit, fun _ => hload, ?_, ?_⟩, waiting, hkempt⟩
            · rw [hexit]
              simp
            · rw [hthere]
              simp
        | ok a =>
            obtain ⟨hexit, hkempt⟩ :=
              flush_accepted h.writable ho hm hfresh hapart htime hacc
            refine ⟨⟨Or.inl hexit, ?_, fun _ => hkempt.exists?_pending, ?_⟩, [], hkempt⟩
            · rw [hexit]
              simp
            · rw [hthere]
              simp

theorem waitingIn_of_gone (hp : t.place out = .ok home) (hd : t.isDirectory home = true)
    (gone : t.entry? (home ++ [Artifact.fileName .pending]) = none) : waitingIn t out = [] := by
  have hread : t.readText (Artifact.path .pending out) = .error .notFound := by
    have hl := Artifact.locate_path hp hd .pending
    simp only [Tree.readText, Tree.read, hl, gone, bind, Except.bind]
    rfl
  simp only [waitingIn, Outbox.load, hread]

theorem Kempt.waitingIn_eq (h : Kempt t out home ids logs waiting) :
    waitingIn t out = waiting := by
  by_cases hwaits : waiting = []
  · subst hwaits
    exact waitingIn_of_gone h.writable.place h.writable.directory h.custody.gone
  · obtain ⟨o, ho, rfl⟩ := h.custody.waiting_of_ne hwaits
    simp only [waitingIn, ho.load h.writable, ho.unsent]

theorem Kempt.keeps_pending (h : Kempt t out home ids logs waiting) {log : Log}
    (hlog : log ∈ waiting) : Keeps t out ids log .pending := by
  rw [Keeps, h.waitingIn_eq]
  exact hlog

/-- Where nothing waits, a log is in a batch. -/
theorem Conserved.exists_batch (h : Conserved t out ids logs) (hnone : waitingIn t out = [])
    {log : Log} (hlog : log ∈ logs) : ∃ l, Keeps t out ids log (.batch l) := by
  obtain ⟨p, hp, -⟩ := h.place log hlog
  cases p with
  | pending => simp [Keeps, hnone] at hp
  | batch l => exact ⟨l, hp⟩

theorem batchAt?_of_none {l : Location} (h : t.file? l = none) : batchAt? t l = none := by
  rw [batchAt?, h, Option.bind_none]

theorem Batched.batchAt? {l : Location} {id : String} {now : Timestamp}
    (h : Batched t ids logs l id now) (hs : ∀ log ∈ logs, log.Sound Timestamp.lastMillis) :
    batchAt? t l = some (Batch.assemble id now logs) := by
  have hback := Batch.ofText?_assemble id h.inTime.valid fun log hlog => (hs log hlog).wellFormed
  rw [Cli.batchAt?, h.written, Option.bind_some, Tree.fromUTF8?_toUTF8, Option.bind_some, hback]

theorem OnlyBatches.eq_of_keeps {known : Location → Prop} (h : OnlyBatches t ids known)
    {log : Log} {l : Location} (hk : Keeps t out ids log (.batch l)) : known l := by
  obtain ⟨id, hid, hl, b, hb, -⟩ := hk
  by_contra hnot
  rw [batchAt?_of_none (h id hid l hl hnot)] at hb
  simp at hb

/-- Files that keep account of the logs have each of them once. -/
theorem Kempt.conserved (h : Kempt t out home ids logs waiting)
    (hs : ∀ log ∈ logs, log.Sound Timestamp.lastMillis) : Conserved t out ids logs := by
  obtain ⟨m, hm⟩ := h.summary
  have hwaiting := h.waitingIn_eq
  have hcounted : ∃ m, summaryIn t out = some m ∧
      m.report.pending = (waitingIn t out).length :=
    ⟨m, hm.read h.writable, by rw [hwaiting, hm.pending]⟩
  have hexists := Artifact.exists?_path h.writable.place h.writable.directory .pending
  cases h.custody with
  | waiting o ho =>
      have hkeeps : ∀ log ∈ logs, Keeps t out ids log .pending := by
        intro log hlog
        simp only [Keeps, hwaiting]
        exact hlog
      refine ⟨?_, hwaiting ▸ List.Sublist.refl _, ?_, hcounted⟩
      · intro log hlog
        refine ⟨.pending, hkeeps log hlog, ?_⟩
        rintro (_ | l) hk
        · rfl
        · exact (ho.only.eq_of_keeps hk).elim
      · rw [hexists, ho.written]
        obtain ⟨log, hlog⟩ := List.exists_mem_of_ne_nil _ ho.some
        exact ⟨fun _ => ⟨log, hlog, hkeeps log hlog⟩, fun _ => rfl⟩
  | batched l id now hsome hb gone =>
      refine ⟨?_, hwaiting ▸ List.nil_sublist _, ?_, hcounted⟩
      · intro log hlog
        refine ⟨.batch l, ⟨id, hb.used, hb.named, _, hb.batchAt? hs,
          Batch.verifies_assemble id now logs, hlog⟩, ?_⟩
        rintro (_ | l') hk
        · simp only [Keeps, hwaiting, List.not_mem_nil] at hk
        · exact congrArg Place.batch (hb.only.eq_of_keeps hk)
      · simp [hexists, gone, Keeps, hwaiting]
  | nothing hnone only gone =>
      refine ⟨?_, hwaiting ▸ List.nil_sublist _, ?_, hcounted⟩
      · simp [hnone]
      · simp [hexists, gone, hnone]

end Steps

section Commands

variable {c : RunCommand} {s : Setting} {chosen : Selection Script} {cases : List TestCase}
  {home : Location} [SetLimit]

theorem Reaches.kempt (h : Begins c s chosen cases home)
    (ha : Apart s.tree c.out home chosen.config.reportDir) {ids : List String} {t : Tree}
    (hr : Reaches c s home ids t) :
    ∃ waiting, Kempt t c.out home ids
      (c.execute s chosen cases (c.made s)).progress.outbox.logs waiting := by
  induction hr with
  | run => exact ⟨_, h.kempt ha⟩
  | flush f s' hr hf ih =>
      obtain ⟨waiting, hkempt⟩ := ih
      obtain ⟨hsame, halone, hfresh, hapart, htime⟩ := hf
      rw [← hsame] at hkempt halone hapart ⊢
      exact ((hkempt.leftAlone halone).flush hfresh hapart htime).2

/-- Through a run and any flushes that follow it, every log of the run is kept
in exactly one place. -/
theorem reports_conserved (h : Begins c s chosen cases home)
    (ha : Apart s.tree c.out home chosen.config.reportDir) :
    let run := c.execute s chosen cases (c.made s)
    let logs := run.progress.outbox.logs
    (logs.map fun log => (log.key, log.size)).Perm
        ((run.summary.results.filter fun r => 0 < r.metrics).map fun r =>
          (r.id.key (planOf chosen.config chosen.device).abi, r.metrics)) ∧
      ∀ ids t, Reaches c s home ids t → Conserved t c.out ids logs ∧
        ∀ f s', Follows c.out home ids t f s' → FlushLaw f s' := by
  refine ⟨h.tally ha, ?_⟩
  intro ids t hr
  obtain ⟨waiting, hkempt⟩ := hr.kempt h ha
  refine ⟨hkempt.conserved (h.sound ha), ?_⟩
  intro f s' hf
  obtain ⟨hsame, halone, hfresh, hapart, htime⟩ := hf
  rw [← hsame] at hkempt halone hapart
  exact ((hkempt.leftAlone halone).flush hfresh hapart htime).1

end Commands

/-! ## One search on a quiet device -/

/-- What a run is up to follows from the layers of its suite and from its device. -/
theorem prepare_of_layer {c : RunCommand} {s : Setting} {text : String} {v : Json}
    {config : Config} {device : Script} {entries : List Entry} {cases : List TestCase}
    (hhome : s.home = none) (hc : c.overrides = ⟨none, none, none, [], []⟩)
    (hread : s.tree.read c.suite = .ok text.toUTF8) (hv : Toml.layerOfText? text = some v)
    (hconfig : Config.ofValue (mergeLayers [Effective.builtinLayer.value, v]) = .ok config)
    (hvalid : config.validate = .ok ()) (hdevice : loadDevice s c.device = .ok device)
    (hentries : config.selected = .ok entries) (hcases : Suite.casesOf entries = .ok cases) :
    ∃ e, c.prepare s = .ok (⟨e, config, device, entries⟩, cases) := by
  obtain ⟨source, hlayer⟩ : ∃ source, Effective.readLayer s.tree .suite c.suite =
      .ok ⟨v, source⟩ := by
    refine ⟨⟨.suite, some (c.suite, Digest.sha256 text.toUTF8.toList)⟩, ?_⟩
    simp only [Effective.readLayer, hread, Tree.fromUTF8?_toUTF8, hv]
  have hsuite : (Effective.ofLayers [Effective.builtinLayer, ⟨v, source⟩] s.now).suiteConfig =
      .ok config := by
    simp only [Effective.suiteConfig, Effective.ofLayers, List.map_cons, List.map_nil, hconfig,
      hvalid, bind, Except.bind, pure, Except.pure]
  have heffective : loadEffective s (some c.suite) c.overrides =
      .ok (Effective.ofLayers [Effective.builtinLayer, ⟨v, source⟩] s.now) := by
    have hoverrides : Effective.overrideLayers
        (⟨none, none, none, [], []⟩ : Overrides).layer? = [] := rfl
    have hhost : (⟨none, none, none, [], []⟩ : Overrides).hostPath? none = none := rfl
    simp only [loadEffective, hc, hhome, hhost, Effective.build, Effective.hostLayers,
      Effective.suiteLayers, hlayer, hoverrides, Except.map, bind, Except.bind, pure,
      Except.pure, List.append_nil, List.singleton_append, hsuite, Except.mapError]
  refine ⟨Effective.ofLayers [Effective.builtinLayer, ⟨v, source⟩] s.now, ?_⟩
  simp only [RunCommand.prepare, select, heffective, hsuite, hdevice, hentries, hcases, bind,
    Except.bind, Except.mapError, pure, Except.pure]

theorem loadDevice_of_text {s : Setting} {path text : String} {device : Script}
    (hread : s.tree.readText path = .ok text)
    (hdevice : (Toml.ofText? text).bind (Script.ofJson? .toml) = some device) :
    loadDevice s path = .ok device := by
  simp only [loadDevice, hread, hdevice]

/-- A device on which a search ends at once, without an answer. -/
def quietDevice : String :=
  "[device]\nmodel = \"quiet\"\nabi = \"arm64\"\n" ++
    ("capabilities = [\"wifi.p2p\", \"wifi.p2p.service_discovery\"]\n" ++
    ("[[responses]]\non = \"discover_services\"\n" ++
    "events = [\x7b event = \x7b kind = \"discovery_complete\" \x7d \x7d]\n"))

def quietScript : Script :=
  ⟨⟨"quiet", "arm64", .ofList [.peerToPeer, .serviceDiscovery]⟩,
    [⟨.discoverServices, none, none, [⟨0, .discoveryComplete⟩]⟩]⟩

/-- A suite with one search that expects no answer. -/
def searchSuite : String :=
  "[[tests]]\nid = \"net.Search#none\"\nkind = \"wifi_p2p_service_discovery\"\n" ++
    "params = \x7b query = \"all\", expect = \"none\" \x7d\n"

def searchTests : Json :=
  .array [.object [("id", .string "net.Search#none"),
    ("kind", .string "wifi_p2p_service_discovery"),
    ("params", .object [("expect", .string "none"), ("query", .string "all")])]]

def searchEntry : Entry :=
  ⟨⟨"net.Search", "none", by decide⟩, .serviceDiscovery, .empty,
    .object [("expect", .string "none"), ("query", .string "all")]⟩

def searchConfig (reportDir : String) : Config :=
  ⟨.default, reportDir, [searchEntry]⟩

def searchCase : TestCase :=
  Discovery.toCase ⟨.all, .none, [], []⟩ searchEntry.id .empty

def searchPlan : Plan :=
  ⟨"cts", "arm64", .standard⟩

def plainRun : RunCommand :=
  ⟨"suite.toml", "device.toml", ⟨none, none, none, [], []⟩, "out", false⟩

/-- A suite and the quiet device, and no other file. -/
def quietSetting (suite : String) : Setting :=
  ⟨⟨[(["device.toml"], .file quietDevice.toUTF8), (["suite.toml"], .file suite.toUTF8)], []⟩,
    none, 0, "suite", "first"⟩

theorem toList_append_of {a b : String} {cs ds : List Char} (ha : a.toList = cs)
    (hb : b.toList = ds) : (a ++ b).toList = cs ++ ds := by
  rw [String.toList_append, ha, hb]

theorem ofText?_quietDevice :
    (Toml.ofText? quietDevice).bind (Script.ofJson? .toml) = some quietScript := by
  have htext : Toml.ofText? quietDevice = some (.object [
      ("device", .object [("abi", .string "arm64"),
        ("capabilities", .array [.string "wifi.p2p", .string "wifi.p2p.service_discovery"]),
        ("model", .string "quiet")]),
      ("responses", .array [.object [
        ("events", .array [.object [("event", .object [
          ("kind", .string "discovery_complete")])]]),
        ("on", .string "discover_services")]])]) := by
    have hchars : quietDevice.toList = _ :=
      toList_append_of String.toList_ofList (toList_append_of String.toList_ofList
        (toList_append_of String.toList_ofList String.toList_ofList))
    unfold Toml.ofText?
    rw [hchars]
    cbv
  rw [htext]
  rfl

theorem layerOfText?_searchSuite :
    Toml.layerOfText? searchSuite = some (.object [("tests", searchTests)]) := by
  have hchars : searchSuite.toList = _ :=
    toList_append_of String.toList_ofList String.toList_ofList
  unfold Toml.layerOfText? Toml.ofText?
  rw [hchars]
  cbv

/-- What the search suite comes to on the quiet device. -/
abbrev searched (e : Effective) (reportDir : String) : Selection Script :=
  ⟨e, searchConfig reportDir, quietScript, [searchEntry]⟩

theorem prepare_search {s : Setting} {suite reportDir : String} {v : Json}
    (hhome : s.home = none) (hsuite : s.tree.read plainRun.suite = .ok suite.toUTF8)
    (hdevice : s.tree.readText plainRun.device = .ok quietDevice)
    (hv : Toml.layerOfText? suite = some v)
    (hc : Config.ofValue (mergeLayers [Effective.builtinLayer.value, v]) =
      .ok (searchConfig reportDir)) :
    ∃ e, plainRun.prepare s =
      .ok (searched e reportDir, [searchCase]) :=
  prepare_of_layer hhome rfl hsuite hv hc rfl (loadDevice_of_text hdevice ofText?_quietDevice)
    rfl rfl

theorem prepare_quiet {suite reportDir : String} {v : Json}
    (hv : Toml.layerOfText? suite = some v)
    (hc : Config.ofValue (mergeLayers [Effective.builtinLayer.value, v]) =
      .ok (searchConfig reportDir)) :
    ∃ e, plainRun.prepare (quietSetting suite) =
      .ok (searched e reportDir, [searchCase]) :=
  prepare_search rfl rfl (Tree.readText_of_locate (l := ["device.toml"]) rfl rfl) hv hc

section Search

variable {σ : Type} {p : Progress σ}

/-- The bench before the search. -/
def quietBench : Bench :=
  ⟨0, .fresh, .ofScript quietScript, none⟩

/-- The bench with the session for the search. -/
def searching : Bench :=
  ⟨0, .fresh, ⟨quietScript.profile.capabilities, quietScript.responses,
    Device.CapabilitySet.empty.insert .serviceDiscovery, []⟩,
    some ⟨.serviceDiscovery, [], true⟩⟩

theorem execute_search (hb : p.bench = searching) :
    (Run.execute searchPlan searchCase 0 p).2.bench.clock = 0 ∧
      ∃ log, (Run.execute searchPlan searchCase 0 p).2.outbox = p.outbox.submit log := by
  obtain ⟨f, hrun, hlog, hclock⟩ : ∃ f, searchCase.execute.run
      (Context.start searchCase.id searchPlan.abi searchPlan.timeouts p.bench) p.bench = f ∧
      f.log.isEmpty = false ∧ f.bench.clock = 0 := by
    rw [hb]
    have hqueue : (⟨.serviceDiscovery, [⟨0, .discoveryComplete⟩], true⟩ :
        Device.Session).queue = ⟨0, .discoveryComplete⟩ :: [] := rfl
    have hgather : Check.gather (Discovery.isSettled ⟨.all, .none, [], []⟩)
        ⟨searchPlan.timeouts, 0⟩ .fresh []
        ⟨.serviceDiscovery, [⟨0, .discoveryComplete⟩], true⟩ 0 =
        (.ok [⟨.discoveryComplete, 0⟩], ⟨.serviceDiscovery, [], true⟩, 0) :=
      Check.gather_due rfl rfl hqueue (le_refl 0) rfl
    exact ⟨_, Check.Program.run_gather_ok rfl hgather, rfl, rfl⟩
  unfold Run.execute
  simp only [hrun, Run.fileLog, hlog]
  exact ⟨hclock, _, rfl⟩

theorem attempt_search (index : Nat) (hb : p.bench = quietBench) :
    (Run.attempt searchPlan quietScript.profile index searchCase p).2.bench.clock = 0 ∧
      ∃ log, (Run.attempt searchPlan quietScript.profile index searchCase p).2.outbox =
        p.outbox.submit log := by
  have hcancelled : p.bench.token.isCancelled = false := by
    rw [hb]
    rfl
  have hmissing : quietScript.profile.missing searchCase.requires = [] := rfl
  have hprepare : searchCase.prepare.run p.bench = (.returned (), searching) := by
    rw [hb]
    rfl
  have hstart : p.bench.clock = 0 := by
    rw [hb]
    rfl
  simp only [Run.attempt, hcancelled, hmissing, Progress.bench_enter, hprepare, hstart]
  exact execute_search rfl

/-- The search takes no time and leaves a log. -/
theorem reporting_search (o : Outlets σ) (n : Naming) (s : σ) :
    let p := Run.reporting o searchPlan quietScript.profile n [searchCase] quietBench s
    p.bench.clock = 0 ∧ ∃ log, p.outbox = Outbox.empty.submit log := by
  intro p
  let start := (Progress.opened o n 1 quietBench s).setBench quietBench
  have hbench : (Progress.opened o n 1 quietBench s).bench = quietBench :=
    Progress.bench_opened ..
  have hstart : start.bench = quietBench := rfl
  obtain ⟨hclock, log, hlog⟩ := attempt_search 0 hstart
  refine ⟨?_, log, ?_⟩
  · refine (congrArg Bench.clock (Progress.bench_advance _ o .reporting)).trans ?_
    simp only [Run.casesRun, Run.runCases, Run.runCase, List.length_singleton, hbench]
    exact (Bench.clock_release _).trans hclock
  · refine (Progress.outbox_advance _ o .reporting).trans ?_
    simp only [Run.casesRun, Run.runCases, Run.runCase, List.length_singleton, hbench]
    refine hlog.trans ?_
    rw [Progress.outbox_setBench, Progress.outbox_opened]

theorem planOf_search (reportDir : String) :
    planOf (searchConfig reportDir) quietScript = searchPlan := rfl

theorem beforeFlush_search {s : Setting} (hclock : s.clock = 0) (reportDir : String)
    (e : Effective) :
    let p := plainRun.beforeFlush s (searched e reportDir) [searchCase]
    p.bench.clock = 0 ∧ ∃ log, p.outbox = Outbox.empty.submit log := by
  have hbench : benchOf s quietScript = quietBench := by
    rw [benchOf, hclock]
    rfl
  have hsearch := reporting_search (outletsIn plainRun.out reportDir)
    ⟨s.suiteId, s.batchId, 0⟩ (plainRun.made s)
  rw [← planOf_search reportDir, ← hbench] at hsearch
  exact hsearch

theorem clock_search {s : Setting} (hclock : s.clock = 0) (reportDir : String) (e : Effective) :
    (plainRun.beforeFlush s (searched e reportDir) [searchCase]).bench.clock ≤
      Timestamp.lastMillis :=
  (beforeFlush_search hclock reportDir e).1.trans_le (Nat.zero_le _)

end Search

/-- Such a run begins well where its output directory can be made and written to. -/
theorem begins_of_search {s : Setting} {reportDir : String} {e : Effective}
    (h : plainRun.prepare s = .ok (searched e reportDir, [searchCase])) (hclock : s.clock = 0)
    (hcreated : (s.tree.createDirectories plainRun.out).2 = .ok ())
    (hw : Writable (plainRun.made s) plainRun.out ["out"])
    (hunsent : (plainRun.made s).exists? (Artifact.path .pending plainRun.out) = false)
    (hfresh : Fresh s.tree s.batchId) :
    Begins plainRun s (searched e reportDir) [searchCase] ["out"] where
  prepared := h
  created := hcreated
  writable := hw
  unsent := hunsent
  fresh := hfresh
  inTime := by
    rw [RunCommand.bench_execute]
    exact clock_search hclock reportDir e
  few := by simp

theorem begins_search {suite reportDir : String} {e : Effective}
    (h : plainRun.prepare (quietSetting suite) =
      .ok (searched e reportDir, [searchCase])) :
    Begins plainRun (quietSetting suite) (searched e reportDir) [searchCase] ["out"] := by
  have hplain : IsPlain "first" := by decide
  have hnames : ∀ l ∈ [["device.toml"], ["suite.toml"]],
      l.getLast? ≠ some (batchName "first") := by decide
  exact begins_of_search h rfl rfl ⟨rfl, rfl, forall_carriers.2 ⟨rfl, rfl, rfl⟩⟩ rfl
    (fresh_of_names hplain _ rfl hnames)

theorem apart_reports {t : Tree} (h : t.here = []) :
    Apart t plainRun.out ["out"] Suite.defaultReportDir := by
  have hway : t.way (Files.join plainRun.out Suite.defaultReportDir) =
      [["out"], ["out", "reports"]] := by
    rw [Tree.way, Tree.origin, h]
    rfl
  unfold Apart
  rw [hway]
  decide

/-! ## The search with a file in the place of its reports -/

/-- Where a run and a flush would make their report directories there are files. -/
def blockedSetting : Setting :=
  ⟨⟨[(["device.toml"], .file quietDevice.toUTF8), (["out"], .directory),
    (["out", "other"], .file "".toUTF8), (["out", "reports"], .file "".toUTF8),
    (["suite.toml"], .file searchSuite.toUTF8)], []⟩, none, 0, "suite", "first"⟩

/-- A later command, with the files as they are then. -/
def later (t : Tree) (batchId : String) : Setting :=
  { blockedSetting with tree := t, batchId := batchId }

theorem tree_later (t : Tree) (batchId : String) : (later t batchId).tree = t := rfl

theorem prepare_blocked : ∃ e, plainRun.prepare blockedSetting =
    .ok (searched e Suite.defaultReportDir, [searchCase]) :=
  prepare_search rfl rfl (Tree.readText_of_locate (l := ["device.toml"]) rfl rfl)
    layerOfText?_searchSuite rfl

theorem place_made : (plainRun.made blockedSetting).place plainRun.out = .ok ["out"] := rfl

/-- The search leaves a log, and its report directory cannot be made. -/
theorem flushing_blocked (e : Effective) : ∃ log, (plainRun.flushing blockedSetting
    (searched e Suite.defaultReportDir) [searchCase]).2.1 = Outbox.empty.submit log := by
  obtain ⟨log, hlog⟩ := (beforeFlush_search (s := blockedSetting) rfl
    Suite.defaultReportDir e).2
  have hbefore := kept_beforeFlush plainRun blockedSetting (searched e Suite.defaultReportDir)
    [searchCase]
  have hmade : (plainRun.made blockedSetting).file? (["out"] ++ ["reports"]) =
      some "".toUTF8 := rfl
  have hown : ¬ OwnName (["out"] ++ ["reports"]) := by
    unfold OwnName
    decide
  have hname : Files.IsName "reports" := by decide
  have hfile := Tree.file?_eq_some.1 ((hbefore.file _ hown).trans hmade)
  have hunsent : (plainRun.beforeFlush blockedSetting (searched e Suite.defaultReportDir)
      [searchCase]).outbox.unsent ≠ [] := by
    rw [hlog]
    exact List.cons_ne_nil log []
  have hflush := flush_of_file ⟨blockedSetting.batchId, (plainRun.beforeFlush blockedSetting
    (searched e Suite.defaultReportDir) [searchCase]).now⟩
    (hbefore.place place_made) (hbefore.directory ["out"] rfl) hname hfile hunsent
  exact ⟨log, (congrArg (fun flushed => flushed.2.1) hflush).trans hlog⟩

theorem begins_blocked {e : Effective} (h : plainRun.prepare blockedSetting =
      .ok (searched e Suite.defaultReportDir, [searchCase])) :
    Begins plainRun blockedSetting (searched e Suite.defaultReportDir) [searchCase] ["out"] := by
  have hnames : ∀ l ∈ [["device.toml"], ["out"], ["out", "other"], ["out", "reports"],
      ["suite.toml"]], l.getLast? ≠ some (batchName "first") := by decide
  exact begins_of_search h rfl rfl ⟨rfl, rfl, forall_carriers.2 ⟨rfl, rfl, rfl⟩⟩ rfl
    (fresh_of_names (by decide) _ rfl hnames)

/-- A flush into the directory that the run could not make. -/
def retry : FlushCommand :=
  ⟨plainRun.out, some Suite.defaultReportDir, false⟩

/-- The output directory with its pending reports and its summary, and with nothing else
unless it is the file in the place of the reports. -/
def spared (pending summary : String) (blocked : Bool) : Tree :=
  ⟨(["out"], .directory) :: (["out", Artifact.fileName .pending], .file pending.toUTF8) ::
    (if blocked then [(["out", "reports"], .file "".toUTF8)] else []) ++
      [(["out", Artifact.fileName .summary], .file summary.toUTF8)], []⟩

theorem file?_spared (pending summary : String) (blocked : Bool) {id : String} {l : Location}
    (hl : l.getLast? = some (batchName id)) : (spared pending summary blocked).file? l = none := by
  have hnames : ∀ l ∈ [["out"], ["out", Artifact.fileName .pending], ["out", "reports"],
      ["out", Artifact.fileName .summary]], ∀ name ∈ l.getLast?,
        name.toList.head? ≠ some 'b' := by decide
  by_contra hsome
  obtain ⟨content, hcontent⟩ := Option.ne_none_iff_exists'.1 hsome
  have hmem := Tree.mem_entries_of_file hcontent
  refine Report.batchName_ne (hnames l ?_ _ hl) rfl
  cases blocked with
  | false =>
      have hfewer := List.sublist_cons_self ["out", "reports"] [["out", Artifact.fileName .summary]]
      exact ((hfewer.cons_cons _).cons_cons _).mem hmem
  | true => exact hmem

theorem collectorIn_retry (t : Tree) : collectorIn retry.out (retry.reportDirIn t) =
    Report.Collector.toDirectory (Files.join retry.out "reports") := rfl

theorem writable_spared (pending summary : String) (blocked : Bool) :
    Writable (spared pending summary blocked) plainRun.out ["out"] := by
  cases blocked with
  | false => exact ⟨rfl, rfl, forall_carriers.2 ⟨rfl, rfl, rfl⟩⟩
  | true => exact ⟨rfl, rfl, forall_carriers.2 ⟨rfl, rfl, rfl⟩⟩

theorem entry?_spared (pending summary : String) (blocked : Bool) :
    Tree.entry? (spared pending summary blocked) (["out"] ++ [Artifact.fileName .pending]) =
        some (.file pending.toUTF8) ∧
      Tree.entry? (spared pending summary blocked) (["out"] ++ [Artifact.fileName .summary]) =
        some (.file summary.toUTF8) := by
  cases blocked with
  | false => exact ⟨rfl, rfl⟩
  | true => exact ⟨rfl, rfl⟩

section Spared

variable {t : Tree} {ids : List String} {logs : List Log} {o : Outbox} {m : Summary}
  {id : String} (hwait : Waiting t ["out"] ids logs o) (hm : Summarized t ["out"] m logs)
  (hid : IsPlain id)

include hwait hm hid

theorem follows_spared (blocked : Bool) : Follows plainRun.out ["out"] ids t retry
    (later (spared o.toText m.toText blocked) id) where
  same := rfl
  alone := {
    writable := writable_spared _ _ blocked
    summary := (entry?_spared _ _ blocked).2.trans hm.written.symm
    pending := (entry?_spared _ _ blocked).1.trans hwait.written.symm
    batches := by
      intro id' hid' l hl
      exact (file?_spared _ _ blocked hl).trans (hwait.only id' hid' l hl not_false).symm }
  fresh := ⟨hid, fun l hl => file?_spared _ _ blocked hl⟩
  apart := apart_reports rfl
  inTime := Nat.zero_le _

omit hm hid in
theorem waiting_spared (blocked : Bool) :
    Waiting (spared o.toText m.toText blocked) ["out"] ids logs o :=
  ⟨hwait.some, (entry?_spared _ _ blocked).1, hwait.readable, hwait.unsent,
    fun _ _ _ hl _ => file?_spared _ _ blocked hl⟩

omit hwait hid in
theorem summarized_spared (blocked : Bool) :
    Summarized (spared o.toText m.toText blocked) ["out"] m logs :=
  ⟨(entry?_spared _ _ blocked).2, hm.sound, hm.pending⟩

/-- With the file in the way the logs go on waiting. -/
theorem retry_blocked :
    let s := later (spared o.toText m.toText true) id
    (retry.perform s).exit = 30 ∧
      Kempt (retry.perform s).tree plainRun.out ["out"] (id :: ids) logs logs := by
  intro s
  have hf := follows_spared hwait hm hid true
  have hw : Writable s.tree retry.out ["out"] := writable_spared _ _ true
  have hrefused : (collectorIn retry.out (retry.reportDirIn s.tree)).accept
      (Batch.assemble s.batchId s.now o.unsent) s.tree =
        (.error (.file .alreadyExists), s.tree) := by
    have hname : Files.IsName "reports" := by decide
    have hfile : s.tree.entry? (["out"] ++ ["reports"]) = some (.file "".toUTF8) := rfl
    simp only [collectorIn_retry, Report.Collector.toDirectory,
      Tree.createDirectories_join_of_file hw.place hw.directory hname hfile]
  obtain ⟨hexit, hkempt, -⟩ := flush_refused hw (waiting_spared hwait true)
    (summarized_spared hm true) hf.fresh hf.apart hrefused
  exact ⟨hexit, hkempt⟩

/-- Without it they are delivered. -/
theorem retry_free :
    let s := later (spared o.toText m.toText false) id
    (retry.perform s).exit = 0 ∧
      Kempt (retry.perform s).tree plainRun.out ["out"] (id :: ids) logs [] := by
  intro s
  have hf := follows_spared hwait hm hid false
  have hw : Writable s.tree retry.out ["out"] := writable_spared _ _ false
  have hname : Files.IsName "reports" := by decide
  obtain ⟨a, t', htaken⟩ := Report.Collector.accept_of_new
    (b := Batch.assemble s.batchId s.now o.unsent) hid hw.place hw.directory hname rfl
    fun _ => rfl
  rw [← collectorIn_retry s.tree] at htaken
  exact flush_accepted hw (waiting_spared hwait false) (summarized_spared hm false) hf.fresh
    hf.apart hf.inTime htaken

end Spared

/-- The log of the search waits while its report directory cannot be made, through a
flush that is refused, and the flush after that delivers it. -/
theorem reports_conserved_search : ∃ chosen cases log,
    Begins plainRun blockedSetting chosen cases ["out"] ∧
      Apart blockedSetting.tree plainRun.out ["out"] chosen.config.reportDir ∧
      (plainRun.execute blockedSetting chosen cases
        (plainRun.made blockedSetting)).progress.outbox.logs = [log] ∧
      let ran := (plainRun.perform blockedSetting).tree
      Conserved ran plainRun.out ["first"] [log] ∧ Keeps ran plainRun.out ["first"] log .pending ∧
      ∃ blocked, let s := later blocked "second"
        Follows plainRun.out ["out"] ["first"] ran retry s ∧ FlushLaw retry s ∧
        (retry.perform s).exit = 30 ∧
        let refused := (retry.perform s).tree
        Conserved refused plainRun.out ["second", "first"] [log] ∧
        Keeps refused plainRun.out ["second", "first"] log .pending ∧
        ∃ free, let s' := later free "third"
          Follows plainRun.out ["out"] ["second", "first"] refused retry s' ∧ FlushLaw retry s' ∧
          (retry.perform s').exit = 0 ∧
          let delivered := (retry.perform s').tree
          Conserved delivered plainRun.out ["third", "second", "first"] [log] ∧
          ∃ l, Keeps delivered plainRun.out ["third", "second", "first"] log (.batch l) := by
  obtain ⟨e, hprepare⟩ := prepare_blocked
  have hbegins := begins_blocked hprepare
  have hapart : Apart blockedSetting.tree plainRun.out ["out"] _ := apart_reports rfl
  obtain ⟨log, hlog⟩ := flushing_blocked e
  have houtbox := (RunCommand.outbox_execute plainRun blockedSetting
    (searched e Suite.defaultReportDir) [searchCase]).trans hlog
  have hran : Kempt (plainRun.perform blockedSetting).tree plainRun.out ["out"] ["first"] [log]
      [log] := by
    have hkempt := hbegins.kempt hapart
    rw [houtbox] at hkempt
    exact hkempt
  obtain ⟨-, hlaw⟩ := reports_conserved hbegins hapart
  rw [houtbox] at hlaw
  have hsome := List.cons_ne_nil log []
  obtain ⟨o, hwait, -⟩ := hran.custody.waiting_of_ne hsome
  obtain ⟨m, hm⟩ := hran.summary
  have hsecond : IsPlain "second" := by decide
  have hfollows := follows_spared hwait hm hsecond true
  have hfirst : Reaches plainRun blockedSetting ["out"] ["first"] _ := .run
  have hreaches := hfirst.flush retry _ hfollows
  obtain ⟨hrefused, hkept⟩ := retry_blocked hwait hm hsecond
  obtain ⟨o', hwait', -⟩ := hkept.custody.waiting_of_ne hsome
  obtain ⟨m', hm'⟩ := hkept.summary
  have hthird : IsPlain "third" := by decide
  have hfollows' := follows_spared hwait' hm' hthird false
  obtain ⟨hdelivered, hdone⟩ := retry_free hwait' hm' hthird
  have hlast := (hlaw _ _ (hreaches.flush retry _ hfollows')).1
  have hmem := List.mem_singleton_self log
  exact ⟨_, _, log, hbegins, hapart, congrArg Outbox.logs houtbox, (hlaw _ _ hfirst).1,
    hran.keeps_pending hmem, _, hfollows, (hlaw _ _ hfirst).2 _ _ hfollows, hrefused,
    (hlaw _ _ hreaches).1, hkept.keeps_pending hmem, _, hfollows',
    (hlaw _ _ hreaches).2 _ _ hfollows', hdelivered, hlast,
    hlast.exists_batch hdone.waitingIn_eq hmem⟩

end Compliance.Cli
