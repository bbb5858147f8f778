import Compliance.Proofs.Cli.Artifacts
import Compliance.Proofs.Report.Delivery
import Compliance.Proofs.Report.Filing
import Compliance.Proofs.Run.Saved

/-!
# The custody of reports

Between commands the logs of a run are either all in the pending reports or all
in one batch file.  A flush hands them over or leaves them, and the summary
says how many still wait.
-/

namespace Compliance.Cli

open Compliance.Files (Location Tree)
open Compliance.Report (Batch FlushReceipt IsPlain Log Outbox ReportError batchName
  draftName)
open Compliance.Run (Delivery Summary)
open Compliance.Time (Timestamp)

/-- The names in the output directory on which reports depend. -/
def carriers : List String :=
  [Artifact.fileName .summary, Artifact.fileName .pending, pendingDraft]

theorem forall_carriers {p : String → Prop} : (∀ name ∈ carriers, p name) ↔
    p (Artifact.fileName .summary) ∧ p (Artifact.fileName .pending) ∧ p pendingDraft := by
  simp [carriers]

/-- The path of the output directory leads there, and no directory is in the way
of a file on which reports depend. -/
structure Writable (t : Tree) (out : String) (home : Location) : Prop where
  place : t.place out = .ok home
  directory : t.isDirectory home = true
  free : ∀ name ∈ carriers, t.isDirectory (home ++ [name]) = false

/-- A report directory is apart from the files on which reports depend: it is
none of them, and the way there leads through none. -/
def Apart (t : Tree) (out : String) (home : Location) (reportDir : String) : Prop :=
  ∀ name ∈ carriers, home ++ [name] ∉ t.way (Files.join out reportDir)

/-- The id can name a file, and no batch file has it. -/
structure Fresh (t : Tree) (batchId : String) : Prop where
  plain : IsPlain batchId
  unused : ∀ l, l.getLast? = some (batchName batchId) → t.file? l = none

theorem fresh_of_names {t : Tree} {batchId : String} (hb : IsPlain batchId)
    (ls : List Location) (hls : t.entries.map (·.1) = ls)
    (h : ∀ l ∈ ls, l.getLast? ≠ some (batchName batchId)) : Fresh t batchId := by
  refine ⟨hb, fun l hl => ?_⟩
  by_contra hsome
  obtain ⟨content, hcontent⟩ := Option.ne_none_iff_exists'.1 hsome
  exact h l (hls ▸ Tree.mem_entries_of_file hcontent) hl

/-! ## The invariant -/

/-- No file has the name of a batch with one of these ids, but for some. -/
def OnlyBatches (t : Tree) (ids : List String) (known : Location → Prop) : Prop :=
  ∀ id ∈ ids, ∀ l, l.getLast? = some (batchName id) → ¬ known l → t.file? l = none

/-- All of the logs are in one batch file. -/
structure Batched (t : Tree) (ids : List String) (logs : List Log) (l : Location)
    (id : String) (now : Timestamp) : Prop where
  used : id ∈ ids
  named : l.getLast? = some (batchName id)
  inTime : now.By Timestamp.lastMillis
  written : t.file? l = some (Batch.assemble id now logs).toText.toUTF8
  only : OnlyBatches t ids (· = l)

/-- All of the logs wait in the pending reports. -/
structure Waiting (t : Tree) (home : Location) (ids : List String) (logs : List Log)
    (o : Outbox) : Prop where
  some : logs ≠ []
  written : t.entry? (home ++ [Artifact.fileName .pending]) =
    .some (.file o.toText.toUTF8)
  readable : Outbox.ofText? o.toText = .some o
  unsent : o.unsent = logs
  only : OnlyBatches t ids fun _ => False

/-- The logs that wait are all or none of them; those that do not wait are in
one batch. -/
inductive Custody (t : Tree) (home : Location) (ids : List String) (logs : List Log) :
    List Log → Prop
  | waiting (o : Outbox) (h : Waiting t home ids logs o) : Custody t home ids logs logs
  | batched (l : Location) (id : String) (now : Timestamp) (some : logs ≠ [])
      (h : Batched t ids logs l id now)
      (gone : t.entry? (home ++ [Artifact.fileName .pending]) = none) :
      Custody t home ids logs []
  | nothing (none : logs = []) (only : OnlyBatches t ids fun _ => False)
      (gone : t.entry? (home ++ [Artifact.fileName .pending]) = .none) :
      Custody t home ids logs []

/-- The summary can be read, and says how many logs wait. -/
structure Summarized (t : Tree) (home : Location) (m : Summary) (waiting : List Log) :
    Prop where
  written : t.entry? (home ++ [Artifact.fileName .summary]) =
    some (.file m.toText.toUTF8)
  sound : m.Sound
  pending : m.report.pending = waiting.length

/-- The files between two commands. -/
structure Kempt (t : Tree) (out : String) (home : Location) (ids : List String)
    (logs waiting : List Log) : Prop where
  writable : Writable t out home
  custody : Custody t home ids logs waiting
  summary : ∃ m, Summarized t home m waiting

/-! ## Changes beside the reports -/

variable {t t' : Tree} {out : String} {home : Location} {ids : List String}
  {logs waiting : List Log} {files way : Location → Prop}

theorem Writable.kept (h : Writable t out home) (hk : Tree.Kept files way t t')
    (hfree : ∀ name ∈ carriers, t'.isDirectory (home ++ [name]) = false) :
    Writable t' out home :=
  ⟨hk.place h.place, hk.directory home h.directory, hfree⟩

theorem OnlyBatches.kept {known : Location → Prop} (h : OnlyBatches t ids known)
    (hk : ∀ id ∈ ids, ∀ l, l.getLast? = some (batchName id) → ¬ known l →
      t'.file? l = t.file? l) : OnlyBatches t' ids known := by
  intro id hid l hl hknown
  rw [hk id hid l hl hknown, h id hid l hl hknown]

theorem OnlyBatches.cons {known : Location → Prop} (h : OnlyBatches t ids known)
    {id : String} (hid : ∀ l, l.getLast? = some (batchName id) → ¬ known l → t.file? l = none) :
    OnlyBatches t (id :: ids) known := by
  intro id' hid' l hl hknown
  rcases List.mem_cons.1 hid' with rfl | hid'
  · exact hid l hl hknown
  · exact h id' hid' l hl hknown

theorem OnlyBatches.mono {known known' : Location → Prop} (h : OnlyBatches t ids known)
    (hk : ∀ l, known l → known' l) : OnlyBatches t ids known' :=
  fun id hid l hl hknown => h id hid l hl fun hl' => hknown (hk l hl')

theorem Custody.kept (h : Custody t home ids logs waiting)
    (hp : t'.entry? (home ++ [Artifact.fileName .pending]) =
      t.entry? (home ++ [Artifact.fileName .pending]))
    (hb : ∀ id ∈ ids, ∀ l, l.getLast? = some (batchName id) → t'.file? l = t.file? l) :
    Custody t' home ids logs waiting := by
  cases h with
  | waiting o h =>
      exact .waiting o ⟨h.some, hp.trans h.written, h.readable, h.unsent,
        h.only.kept fun id hid l hl _ => hb id hid l hl⟩
  | batched l id now hsome h gone =>
      refine .batched l id now hsome ⟨h.used, h.named, h.inTime, ?_, ?_⟩ (hp.trans gone)
      · rw [hb id h.used l h.named]
        exact h.written
      · exact h.only.kept fun id hid l hl _ => hb id hid l hl
  | nothing hnone only gone =>
      exact .nothing hnone (only.kept fun id hid l hl _ => hb id hid l hl) (hp.trans gone)

theorem head_carriers : ∀ name ∈ carriers,
    name.toList.head? ≠ some 'b' ∧ name.toList.head? ≠ some '.' := by decide

theorem ne_of_batchName {id name : String} {l : Location}
    (hl : l.getLast? = some (batchName id)) (hname : name ∈ carriers) : l ≠ home ++ [name] := by
  rintro rfl
  simp only [List.getLast?_append, List.getLast?_singleton, Option.some_or,
    Option.some.injEq] at hl
  exact Report.batchName_ne (head_carriers name hname).1 hl.symm

theorem ne_of_draftName {id name : String} (hname : name ∈ carriers) :
    (home ++ [name]).getLast? ≠ some (draftName id) := by
  simp only [List.getLast?_append, List.getLast?_singleton, Option.some_or, ne_eq,
    Option.some.injEq]
  exact (Report.draftName_ne (head_carriers name hname).2).symm

theorem summary_mem_carriers : Artifact.fileName .summary ∈ carriers := by decide

theorem pending_mem_carriers : Artifact.fileName .pending ∈ carriers := by decide

theorem draft_mem_carriers : pendingDraft ∈ carriers := by decide

theorem carriers_ne {a b : String} (h : a ≠ b) : home ++ [a] ≠ home ++ [b] := by
  simpa using h

theorem Custody.gone (h : Custody t home ids logs []) :
    t.entry? (home ++ [Artifact.fileName .pending]) = none := by
  generalize hw : ([] : List Log) = w at h
  cases h with
  | waiting o h => exact absurd hw.symm h.some
  | batched l id now hsome h gone => exact gone
  | nothing hnone only gone => exact gone

theorem Custody.waiting_of_ne (h : Custody t home ids logs waiting) (hne : waiting ≠ []) :
    ∃ o, Waiting t home ids logs o ∧ waiting = logs := by
  cases h with
  | waiting o h => exact ⟨o, h, rfl⟩
  | batched | nothing => exact absurd rfl hne

/-- An id that was not used adds no batch. -/
theorem Custody.cons (h : Custody t home ids logs waiting) {id : String} (hf : Fresh t id) :
    Custody t home (id :: ids) logs waiting := by
  have hnew {known : Location → Prop} (only : OnlyBatches t ids known) :
      OnlyBatches t (id :: ids) known := only.cons fun l hl _ => hf.unused l hl
  cases h with
  | waiting o h =>
      exact .waiting o ⟨h.some, h.written, h.readable, h.unsent, hnew h.only⟩
  | batched l id' now hsome h gone =>
      exact .batched l id' now hsome ⟨List.mem_cons_of_mem id h.used, h.named, h.inTime,
        h.written, hnew h.only⟩ gone
  | nothing hnone only gone => exact .nothing hnone (hnew only) gone

/-! ## The files on which reports depend -/

section Carriers

variable (hw : Writable t out home)

include hw

/-- A written summary is in its place, and nothing else has changed. -/
theorem Writable.summary (text : String) :
    Tree.entry? (Artifact.write .summary out text t) (home ++ [Artifact.fileName .summary]) =
        some (.file text.toUTF8) ∧
      Tree.Kept (· = home ++ [Artifact.fileName .summary]) (fun _ => False) t
        (Artifact.write .summary out text t) ∧
      Writable (Artifact.write .summary out text t) out home := by
  have hfree := hw.free _ summary_mem_carriers
  rw [Artifact.write_of_place hw.place hw.directory .summary hfree]
  have hentry := Tree.entry?_put (l := home ++ [Artifact.fileName .summary]) (by simp) t
    (.file text.toUTF8)
  have hkept := Tree.kept_putFile hfree text.toUTF8
  exact ⟨by rw [hentry, if_pos rfl], hkept, hw.kept hkept fun name hname =>
    Tree.isDirectory_put_file (by simp) t _ (hw.free name hname)⟩

theorem Writable.save (o : Outbox) :
    Tree.entry? (o.save t (Artifact.path .pending out)).1
        (home ++ [Artifact.fileName .pending]) = some (.file o.toText.toUTF8) ∧
      Tree.Kept (fun l => l = home ++ [pendingDraft] ∨
          l = home ++ [Artifact.fileName .pending]) (fun _ => False) t
        (o.save t (Artifact.path .pending out)).1 ∧
      Writable (o.save t (Artifact.path .pending out)).1 out home := by
  obtain ⟨hentry, hdraft, hkept⟩ := save_pending hw.place hw.directory o
    (hw.free _ pending_mem_carriers) (hw.free _ draft_mem_carriers)
  refine ⟨hentry, hkept, hw.kept hkept fun name hname => ?_⟩
  by_cases hp : name = Artifact.fileName .pending
  · subst hp
    exact Tree.isDirectory_of_file hentry
  · by_cases hd : name = pendingDraft
    · subst hd
      exact hdraft
    · have hne : ¬ (home ++ [name] = home ++ [pendingDraft] ∨
          home ++ [name] = home ++ [Artifact.fileName .pending]) := by
        rintro (h | h)
        · exact carriers_ne hd h
        · exact carriers_ne hp h
      rw [Tree.isDirectory_congr (hkept.entry _ hne not_false)]
      exact hw.free name hname

theorem Writable.remove {content : ByteArray}
    (he : t.entry? (home ++ [Artifact.fileName .pending]) = some (.file content)) :
    Tree.entry? (Artifact.remove .pending out t) (home ++ [Artifact.fileName .pending]) =
        none ∧
      Tree.Kept (· = home ++ [Artifact.fileName .pending]) (fun _ => False) t
        (Artifact.remove .pending out t) ∧
      Writable (Artifact.remove .pending out t) out home := by
  rw [Artifact.remove_of_place hw.place hw.directory .pending he]
  have hentry := Tree.entry?_erase (l := home ++ [Artifact.fileName .pending]) (by simp) t
  have hkept := Tree.kept_erase he
  exact ⟨by rw [hentry, if_pos rfl], hkept, hw.kept hkept fun name hname =>
    Tree.isDirectory_erase (by simp) t (hw.free name hname)⟩

end Carriers

/-! ## Handing over -/

/-- Nothing on which reports depend has changed. -/
structure Beside (home : Location) (t t' : Tree) : Prop where
  here : t'.here = t.here
  carriers : ∀ name ∈ carriers, t'.entry? (home ++ [name]) = t.entry? (home ++ [name])
  batches : ∀ id l, l.getLast? = some (batchName id) → t'.file? l = t.file? l
  place : ∀ path l, t.place path = .ok l → t'.place path = .ok l
  directory : ∀ l, t.isDirectory l = true → t'.isDirectory l = true

theorem Beside.trans {t'' : Tree} (h : Beside home t t') (h' : Beside home t' t'') :
    Beside home t t'' :=
  ⟨h'.here.trans h.here, fun name hn => (h'.carriers name hn).trans (h.carriers name hn),
    fun id l hl => (h'.batches id l hl).trans (h.batches id l hl),
    fun path l hl => h'.place path l (h.place path l hl),
    fun l hl => h'.directory l (h.directory l hl)⟩

theorem Beside.writable (h : Beside home t t') (hw : Writable t out home) :
    Writable t' out home :=
  ⟨h.place out home hw.place, h.directory home hw.directory, fun name hname => by
    rw [Tree.isDirectory_congr (h.carriers name hname)]
    exact hw.free name hname⟩

theorem Beside.custody (h : Beside home t t') (hc : Custody t home ids logs waiting) :
    Custody t' home ids logs waiting :=
  hc.kept (h.carriers _ pending_mem_carriers) fun id _ l hl => h.batches id l hl

theorem Apart.of_here {reportDir : String} (h : Apart t out home reportDir)
    (hh : t'.here = t.here) : Apart t' out home reportDir := by
  intro name hname
  unfold Tree.way Tree.origin
  rw [hh]
  exact h name hname

theorem Fresh.of_file {id : String} (h : Fresh t id)
    (hf : ∀ l, l.getLast? = some (batchName id) → t'.file? l = t.file? l) : Fresh t' id :=
  ⟨h.plain, fun l hl => (hf l hl).trans (h.unused l hl)⟩

/-- Changes to files of other names leave alone what reports depend on. -/
theorem beside_of_names (hk : Tree.Kept files (fun _ => False) t t')
    (hf : ∀ l, files l → ∃ name, l.getLast? = some name ∧ name ∉ carriers ∧
      name.toList.head? ≠ some 'b') : Beside home t t' := by
  refine ⟨hk.here, fun name hname => hk.entry _ ?_ not_false, fun id l hl => hk.file l ?_,
    fun path l hl => hk.place hl, hk.directory⟩
  · intro hfile
    obtain ⟨other, hlast, hnot, _⟩ := hf _ hfile
    simp only [List.getLast?_append, List.getLast?_singleton, Option.some_or,
      Option.some.injEq] at hlast
    exact hnot (hlast ▸ hname)
  · intro hfile
    obtain ⟨other, hlast, _, hhead⟩ := hf _ hfile
    rw [hl] at hlast
    exact Report.batchName_ne hhead (Option.some.inj hlast)

variable {reportDir : String} {b : Batch}

theorem batchName_ne_draftName (id id' : String) : batchName id ≠ draftName id' := by
  apply Report.batchName_ne
  rw [Report.toList_draftName]
  simp

/-- A batch that is refused changes nothing on which reports depend. -/
theorem refused_beside (hf : Fresh t b.batchId) (ha : Apart t out home reportDir)
    {e : Report.TransportError} (h : (collectorIn out reportDir).accept b t = (.error e, t')) :
    Beside home t t' := by
  have hk := Report.Collector.kept_of_error hf.plain h
  refine ⟨hk.here,
    fun name hname => hk.entry _ (ne_of_draftName hname) fun hway => ha name hname hway.1,
    fun id l hl => hk.file l ?_, fun path l hl => hk.place hl, hk.directory⟩
  rw [hl, Option.some.injEq]
  exact batchName_ne_draftName id _

/-- A batch that is taken is the only file of its name. -/
theorem accepted_beside (hw : Writable t out home) (hf : Fresh t b.batchId)
    (ha : Apart t out home reportDir) {a : Report.Acceptance}
    (h : (collectorIn out reportDir).accept b t = (.ok a, t')) :
    ∃ m : Location,
      t'.file? (m ++ [batchName b.batchId]) = some b.toText.toUTF8 ∧
      (∀ name ∈ carriers, t'.entry? (home ++ [name]) = t.entry? (home ++ [name])) ∧
      (∀ id l, l.getLast? = some (batchName id) → l ≠ m ++ [batchName b.batchId] →
        t'.file? l = t.file? l) ∧
      Writable t' out home := by
  obtain ⟨m, hwritten, hk⟩ := Report.Collector.filed_of_ok hf.plain h
  have hcarriers : ∀ name ∈ carriers, t'.entry? (home ++ [name]) = t.entry? (home ++ [name]) := by
    intro name hname
    refine hk.entry _ ?_ fun hway => ha name hname hway.1
    rintro (hdraft | hbatch)
    · exact ne_of_draftName hname hdraft
    · have hlast : (m ++ [batchName b.batchId]).getLast? = some (batchName b.batchId) := by
        simp
      exact ne_of_batchName hlast hname hbatch.symm
  refine ⟨m, Tree.file?_eq_some.2 hwritten, hcarriers, ?_, ?_⟩
  · intro id l hl hne
    apply hk.file
    rintro (hdraft | hbatch)
    · rw [hl] at hdraft
      exact batchName_ne_draftName id _ (Option.some.inj hdraft)
    · exact hne hbatch
  · exact hw.kept hk fun name hname => by
      rw [Tree.isDirectory_congr (hcarriers name hname)]
      exact hw.free name hname

/-- After a batch was taken, its logs are in one file. -/
theorem batched_of_accepted {now : Timestamp} {id : String} {l : Location}
    (hid : l.getLast? = some (batchName id)) (htime : now.By Timestamp.lastMillis)
    (hwritten : t'.file? l = some (Batch.assemble id now logs).toText.toUTF8)
    (hother : ∀ id' k, k.getLast? = some (batchName id') → k ≠ l → t'.file? k = t.file? k)
    (hf : Fresh t id) (only : OnlyBatches t ids fun _ => False) :
    Batched t' (id :: ids) logs l id now := by
  refine ⟨List.mem_cons_self, hid, htime, hwritten, ?_⟩
  refine OnlyBatches.cons ((only.mono fun _ h => h.elim).kept ?_) ?_
  · intro id' _ k hk hne
    exact hother id' k hk hne
  · intro k hk hne
    rw [hother id k hk hne]
    exact hf.unused k hk

/-! ## Flushing -/

/-- A file in the place of the report directory keeps all batches out. -/
theorem flush_of_file {o : Outbox} (stamp : Report.Stamp) {name : String} {content : ByteArray}
    (hp : t.place out = .ok home) (hd : t.isDirectory home = true) (hname : Files.IsName name)
    (he : t.entry? (home ++ [name]) = some (.file content)) (hne : o.unsent ≠ []) :
    o.flush (collectorIn out name) stamp t =
      (.error (.transport (.file .alreadyExists)), o, t) := by
  apply Outbox.flush_of_error _ _ _ hne
  simp only [collectorIn, Report.Collector.toDirectory,
    Tree.createDirectories_join_of_file hp hd hname he]

section Flush

theorem Summarized.read {m : Summary} (h : Summarized t home m waiting)
    (hw : Writable t out home) : summaryIn t out = some m := by
  have hread := h.sound.wellFormed.ofText?_toText
  unfold summaryIn
  rw [Artifact.readText_path hw.place hw.directory .summary h.written]
  rw [Except.toOption, Option.bind_some, hread]

theorem Summarized.delivery {m : Summary} (h : Summarized t home m waiting)
    (hw : Writable t out home) : deliveryIn t out = m.report := by
  unfold deliveryIn
  rw [h.read hw]

theorem Waiting.load {o : Outbox} (h : Waiting t home ids logs o)
    (hw : Writable t out home) : Outbox.load t (Artifact.path .pending out) = .ok o :=
  load_pending hw.place hw.directory h.written h.readable

variable {f : FlushCommand} {s : Setting}

/-- Where no pending reports are, a flush does nothing. -/
theorem perform_of_gone (hw : Writable s.tree f.out home)
    (h : s.tree.entry? (home ++ [Artifact.fileName .pending]) = none) :
    (f.perform s).exit = 0 ∧ (f.perform s).tree = s.tree := by
  have hexists := Artifact.exists?_path hw.place hw.directory .pending
  rw [h] at hexists
  simp only [FlushCommand.perform, hexists, Option.isSome_none, Bool.false_eq_true, ↓reduceIte]
  exact ⟨rfl, rfl⟩

theorem perform_of_load {o : Outbox}
    (h : Outbox.load s.tree (Artifact.path .pending f.out) = .ok o) :
    f.perform s = f.deliver s o := by
  obtain ⟨home, content, hp, hd, he⟩ := place_of_load h
  have hexists := Artifact.exists?_path hp hd .pending
  rw [he] at hexists
  simp only [FlushCommand.perform, hexists, Option.isSome_some, ↓reduceIte, h]

theorem perform_of_waiting {o : Outbox} (hw : Writable s.tree f.out home)
    (h : Waiting s.tree home ids logs o) : f.perform s = f.deliver s o :=
  perform_of_load (h.load hw)

/-- What is said of the delivery after a flush. -/
def deliveryAfter (f : FlushCommand) (s : Setting) (m : Summary) (unsent : Nat)
    (flushed : Except ReportError FlushReceipt) : Delivery :=
  { m.report.afterFlush unsent flushed with dir := some (f.reportDirIn s.tree) }

theorem deliveryAfter_pending (f : FlushCommand) (s : Setting) (m : Summary) (unsent : Nat)
    (flushed : Except ReportError FlushReceipt) :
    (deliveryAfter f s m unsent flushed).pending = unsent :=
  m.report.pending_afterFlush unsent flushed

theorem deliveryAfter_sound {m : Summary} (hm : m.Sound) {unsent : Nat}
    (hu : unsent < 2 ^ 64) {flushed : Except ReportError FlushReceipt}
    (hs : ∀ r, flushed = .ok r → r.sent < 2 ^ 64) :
    (deliveryAfter f s m unsent flushed).Sound := by
  have hd := hm.report.afterFlush hu hs
  exact ⟨hd.sent, hd.pending⟩

/-- However a flush goes, the summary is written with the number of logs that wait
after it. -/
theorem exists_deliver {o o' : Outbox} {m : Summary}
    {flushed : Except ReportError FlushReceipt}
    (hw : Writable s.tree f.out home) (hm : Summarized s.tree home m waiting)
    (hf : o.flush (collectorIn f.out (f.reportDirIn s.tree)) ⟨s.batchId, s.now⟩ s.tree =
      (flushed, o', t')) (hu : o'.unsentCount < 2 ^ 64)
    (hs : ∀ r, flushed = .ok r → r.sent < 2 ^ 64) :
    ∃ (d : Delivery) (m' : Summary), m'.Sound ∧ m'.report.pending = o'.unsentCount ∧
      f.deliver s o =
        f.conclude d o' (Artifact.write .summary f.out m'.toText t') flushed := by
  have hreported : (deliveryAfter f s m o'.unsentCount flushed).Sound :=
    deliveryAfter_sound hm.sound hu hs
  refine ⟨deliveryAfter f s m o'.unsentCount flushed,
    m.withReport (deliveryAfter f s m o'.unsentCount flushed),
    hm.sound.withReport hreported, deliveryAfter_pending .., ?_⟩
  simp only [FlushCommand.deliver, hf, hm.read hw, hm.delivery hw, updateSummary,
    deliveryAfter]

theorem exit_conclude_error (d : Delivery) (o : Outbox) (e : ReportError) :
    (f.conclude d o t (.error e)).exit = 30 := rfl

theorem tree_conclude_error (d : Delivery) (o : Outbox) (e : ReportError) :
    (f.conclude d o t (.error e)).tree = (o.save t (Artifact.path .pending f.out)).1 := by
  rw [FlushCommand.conclude]

theorem exit_conclude_ok (d : Delivery) (o : Outbox) (r : FlushReceipt) :
    (f.conclude d o t (.ok r)).exit = 0 := rfl

theorem tree_conclude_ok (d : Delivery) (o : Outbox) (r : FlushReceipt) :
    (f.conclude d o t (.ok r)).tree = Artifact.remove .pending f.out t := rfl

variable {o : Outbox} {m : Summary} (hw : Writable s.tree f.out home)
  (hwait : Waiting s.tree home ids logs o) (hm : Summarized s.tree home m logs)
  (hfresh : Fresh s.tree s.batchId) (hapart : Apart s.tree f.out home (f.reportDirIn s.tree))

include hw hwait hm hfresh hapart

/-- A flush that is refused leaves all logs in the pending reports. -/
theorem flush_refused {e : Report.TransportError}
    (h : (collectorIn f.out (f.reportDirIn s.tree)).accept
      (Batch.assemble s.batchId s.now o.unsent) s.tree = (.error e, t')) :
    (f.perform s).exit = 30 ∧
      Kempt (f.perform s).tree f.out home (s.batchId :: ids) logs logs ∧
      Outbox.load (f.perform s).tree (Artifact.path .pending f.out) =
        Outbox.load s.tree (Artifact.path .pending f.out) := by
  have hne : o.unsent ≠ [] := hwait.unsent ▸ hwait.some
  have hcount : o.unsentCount = logs.length := congrArg List.length hwait.unsent
  have hflush := Outbox.flush_of_error (collectorIn f.out (f.reportDirIn s.tree))
    ⟨s.batchId, s.now⟩ s.tree hne (by simpa only using h)
  have hfew : o.unsentCount < 2 ^ 64 := by
    rw [hcount, ← hm.pending]
    exact hm.sound.report.pending
  obtain ⟨d, m', hsound, hpend, hdeliver⟩ := exists_deliver hw hm hflush hfew (by simp)
  rw [perform_of_waiting hw hwait, hdeliver, exit_conclude_error, tree_conclude_error]
  rw [hcount] at hpend
  have hbeside := refused_beside hfresh hapart h
  obtain ⟨hsummary, hkept₂, hw₂⟩ := (hbeside.writable hw).summary m'.toText
  obtain ⟨hpending, hkept₃, hw₃⟩ := hw₂.save o
  generalize Artifact.write .summary f.out m'.toText t' = t₂ at *
  generalize (o.save t₂ (Artifact.path .pending f.out)).1 = t₃ at *
  have hfiles (id : String) (l : Location) (hl : l.getLast? = some (batchName id)) :
      t₃.file? l = s.tree.file? l := by
    rw [hkept₃.file l, hkept₂.file l (ne_of_batchName hl summary_mem_carriers),
      hbeside.batches id l hl]
    rintro (hdraft | hpend)
    · exact ne_of_batchName hl draft_mem_carriers hdraft
    · exact ne_of_batchName hl pending_mem_carriers hpend
  have hwaiting : Waiting t₃ home (s.batchId :: ids) logs o := by
    refine ⟨hwait.some, hpending, hwait.readable, hwait.unsent, ?_⟩
    refine OnlyBatches.cons (hwait.only.kept fun id _ l hl _ => hfiles id l hl) ?_
    intro l hl _
    rw [hfiles s.batchId l hl]
    exact hfresh.unused l hl
  have hwritten : t₃.entry? (home ++ [Artifact.fileName .summary]) =
      some (.file m'.toText.toUTF8) := by
    rw [hkept₃.entry _ _ not_false, hsummary]
    rintro (hdraft | hpend)
    · exact carriers_ne (by decide) hdraft
    · exact carriers_ne (by decide) hpend
  refine ⟨rfl, ⟨hw₃, .waiting o hwaiting, m', hwritten, hsound, hpend⟩, ?_⟩
  rw [hwaiting.load hw₃, hwait.load hw]

/-- A flush that is taken leaves all logs in one new batch file. -/
theorem flush_accepted {a : Report.Acceptance} (htime : s.clock ≤ Timestamp.lastMillis)
    (h : (collectorIn f.out (f.reportDirIn s.tree)).accept
      (Batch.assemble s.batchId s.now o.unsent) s.tree = (.ok a, t')) :
    (f.perform s).exit = 0 ∧
      Kempt (f.perform s).tree f.out home (s.batchId :: ids) logs [] := by
  have hne : o.unsent ≠ [] := hwait.unsent ▸ hwait.some
  have hflush := Outbox.flush_of_ok (collectorIn f.out (f.reportDirIn s.tree))
    ⟨s.batchId, s.now⟩ s.tree hne (by simpa only using h)
  have hfew : o.unsent.length < 2 ^ 64 := by
    rw [hwait.unsent, ← hm.pending]
    exact hm.sound.report.pending
  have hnone : o.markSent.unsentCount < 2 ^ 64 := by
    rw [o.unsentCount_markSent]
    exact Nat.two_pow_pos 64
  obtain ⟨d, m', hsound, hpend, hdeliver⟩ := exists_deliver hw hm hflush hnone (by
    rintro r ⟨⟩
    exact hfew)
  rw [perform_of_waiting hw hwait, hdeliver, exit_conclude_ok, tree_conclude_ok]
  rw [o.unsentCount_markSent] at hpend
  obtain ⟨k, hbatch, hcarriers, hbatches, hw₁⟩ := accepted_beside hw hfresh hapart h
  obtain ⟨hsummary, hkept₂, hw₂⟩ := hw₁.summary m'.toText
  have hstill : Tree.entry? (Artifact.write .summary f.out m'.toText t')
      (home ++ [Artifact.fileName .pending]) = some (.file o.toText.toUTF8) := by
    rw [hkept₂.entry _ (carriers_ne (by decide)) not_false,
      hcarriers _ pending_mem_carriers, hwait.written]
  obtain ⟨hgone, hkept₃, hw₃⟩ := hw₂.remove hstill
  generalize Artifact.write .summary f.out m'.toText t' = t₂ at *
  generalize Artifact.remove .pending f.out t₂ = t₃ at *
  have hfiles (id : String) (l : Location) (hl : l.getLast? = some (batchName id)) :
      t₃.file? l = t'.file? l := by
    rw [hkept₃.file l (ne_of_batchName hl pending_mem_carriers),
      hkept₂.file l (ne_of_batchName hl summary_mem_carriers)]
  have hname : (k ++ [batchName s.batchId]).getLast? = some (batchName s.batchId) := by simp
  have hbatched : Batched t₃ (s.batchId :: ids) logs (k ++ [batchName s.batchId]) s.batchId
      s.now := by
    refine batched_of_accepted hname ⟨s.clock, htime, rfl⟩ ?_ ?_ hfresh hwait.only
    · rw [hfiles _ _ hname, ← hwait.unsent]
      exact hbatch
    · intro id l hl hne
      rw [hfiles id l hl, hbatches id l hl hne]
  have hwritten : t₃.entry? (home ++ [Artifact.fileName .summary]) =
      some (.file m'.toText.toUTF8) := by
    rw [hkept₃.entry _ (carriers_ne (by decide)) not_false, hsummary]
  exact ⟨rfl, hw₃, .batched _ _ _ hwait.some hbatched hgone, m', hwritten, hsound, hpend⟩

end Flush

end Compliance.Cli
