import Compliance.Proofs.Json.Canonical
import Compliance.Proofs.Report.Saved

/-!
# What a digest covers

The logs of a batch can be read back from the text that is digested, up to the signs of
zeros.  So two lists of logs have one canonical text only if they are equal as lists of
logs, and a batch with other logs under an old digest does not verify.
-/

namespace Compliance.Digest

/-- The digest tells these texts apart. -/
def Separates (x y : String) : Prop :=
  sha256OfText x = sha256OfText y → x = y

end Compliance.Digest

namespace Compliance.Report

open Compliance.Json (Orderless Recovers)
open Compliance.Number (Binary64)
open Compliance.Time (Timestamp)

/-! ## Without the signs of zeros -/

def MetricValue.unsigned : MetricValue → MetricValue
  | single x => single x.unsigned
  | series xs => series (xs.map Binary64.unsigned)

def Metric.unsigned (m : Metric) : Metric :=
  { m with value := m.value.unsigned }

def Log.unsigned (log : Log) : Log :=
  { log with
    headline := log.headline.map Metric.unsigned
    details := log.details.map fun (name, m) => (name, m.unsigned) }

theorem isEqv_iff {α : Type} {r : α → α → Bool} {f : α → α} {as bs : List α}
    (h : ∀ a ∈ as, ∀ b ∈ bs, r a b = true ↔ f a = f b) :
    as.isEqv bs r = true ↔ as.map f = bs.map f := by
  induction as generalizing bs with
  | nil => cases bs <;> simp [List.isEqv]
  | cons a as ih =>
      cases bs with
      | nil => simp [List.isEqv]
      | cons b bs =>
          have hhead := h a List.mem_cons_self b List.mem_cons_self
          have htail := ih fun c hc d hd =>
            h c (List.mem_cons_of_mem a hc) d (List.mem_cons_of_mem b hd)
          simp [List.isEqv, hhead, htail]

theorem MetricValue.numEq_iff {v w : MetricValue} (hv : v.isFinite = true)
    (hw : w.isFinite = true) : v.numEq w = true ↔ v.unsigned = w.unsigned := by
  simp only [isFinite, List.all_eq_true] at hv hw
  cases v with
  | single x =>
      cases w with
      | single y =>
          rw [unsigned, unsigned, single.injEq]
          exact Binary64.numEq_iff (hv x (List.mem_singleton_self x))
            (hw y (List.mem_singleton_self y))
      | series ys => simp [numEq, unsigned]
  | series xs =>
      cases w with
      | single y => simp [numEq, unsigned]
      | series ys =>
          rw [unsigned, unsigned, series.injEq]
          exact isEqv_iff fun x hx y hy => Binary64.numEq_iff (hv x hx) (hw y hy)

theorem Metric.numEq_iff {m n : Metric} (hm : m.value.isFinite = true)
    (hn : n.value.isFinite = true) : m.numEq n = true ↔ m.unsigned = n.unsigned := by
  simp [numEq, unsigned, MetricValue.numEq_iff hm hn, and_assoc]

theorem Log.numEq_iff {a b : Log} (ha : a.WellFormed) (hb : b.WellFormed) :
    a.numEq b = true ↔ a.unsigned = b.unsigned := by
  have hheadline : a.headline.toList.isEqv b.headline.toList Metric.numEq = true ↔
      a.headline.map Metric.unsigned = b.headline.map Metric.unsigned := by
    rw [isEqv_iff (r := Metric.numEq) (f := Metric.unsigned) fun m hm n hn =>
      Metric.numEq_iff (ha.headline m (Option.mem_toList.1 hm))
        (hb.headline n (Option.mem_toList.1 hn))]
    cases a.headline <;> cases b.headline <;> simp
  have hdetails : (a.details.isEqv b.details fun d e => d.1 == e.1 && d.2.numEq e.2) = true ↔
      a.details.map (fun e => (e.1, e.2.unsigned)) =
        b.details.map fun e => (e.1, e.2.unsigned) :=
    isEqv_iff fun d hd e he => by
      simp [Metric.numEq_iff (ha.details d hd) (hb.details e he)]
  simp [numEq, unsigned, hheadline, hdetails, and_assoc]

/-! ## Canonical texts of equal logs -/

theorem MetricValue.canonical_unsigned (v : MetricValue) :
    v.unsigned.toJson.canonical = v.toJson.canonical := by
  cases v with
  | single x => exact Json.render_unsigned x
  | series xs =>
      apply Json.canonical_array_congr
      simp only [List.map_map]
      exact List.map_congr_left fun x _ => Json.render_unsigned x

theorem Metric.canonical_unsigned (m : Metric) :
    m.unsigned.toJson.canonical = m.toJson.canonical := by
  apply Json.canonical_object_congr
  simp [unsigned, m.value.canonical_unsigned]

theorem Log.canonical_unsigned (log : Log) :
    log.unsigned.toJson.canonical = log.toJson.canonical := by
  have hdetails : (Json.object ((log.details.map fun e => (e.1, e.2.unsigned)).map fun e =>
        (e.1, e.2.toJson))).canonical =
      (Json.object (log.details.map fun e => (e.1, e.2.toJson))).canonical := by
    apply Json.canonical_object_congr
    simp [Metric.canonical_unsigned]
  apply Json.canonical_object_congr
  cases hlog : log.headline with
  | none => simpa [unsigned, Json.member?, hlog] using hdetails
  | some m => simpa [unsigned, Json.member?, hlog, m.canonical_unsigned] using hdetails

/-! ## Logs read from canonical text -/

theorem MetricValue.recovers {v : MetricValue} (h : v.isFinite = true) :
    Recovers ofJson? 1 v.toJson v.unsigned := by
  simp only [isFinite, List.all_eq_true] at h
  cases v with
  | single x =>
      obtain ⟨w, hread, hw⟩ := Json.recovers_real (h x (List.mem_singleton_self x))
      refine ⟨w, hread.mono (Nat.zero_le 1), ?_⟩
      rw [ofJson?, hw, unsigned]
  | series xs =>
      obtain ⟨w, hread, hw⟩ := Json.recovers_list fun x hx => Json.recovers_real (h x hx)
      exact ⟨w, hread, ofJson?_series hw⟩

theorem Metric.orderless : Orderless ofJson? :=
  Json.orderless_record fun f g h => by simp only [h.required]

theorem Metric.recovers {m : Metric} (h : m.value.isFinite = true) :
    Recovers ofJson? 2 m.toJson m.unsigned := by
  obtain ⟨w, hread, hw⟩ := MetricValue.recovers h
  have hstring (s : String) := (Json.reads_quote s).mono (Nat.zero_le 1)
  have hnames : ["name", "value", "unit", "type"].Nodup := by decide
  refine orderless.recovers ?_ ?_ (ofJson?_members hw m.name m.unit m.judgement)
  · exact hnames
  · exact .cons ⟨rfl, hstring _⟩ (.cons ⟨rfl, hread⟩ (.cons ⟨rfl, hstring _⟩
      (.cons ⟨rfl, hstring _⟩ .nil)))

theorem orderless_key : Orderless Log.keyOfJson? :=
  Json.orderless_record fun f g h => by simp only [h.required]

theorem recovers_key (key : TestKey) :
    Recovers Log.keyOfJson? 1 (.object [("class_name", .string key.className),
      ("method_name", .string key.methodName), ("abi", .string key.abi)]) key := by
  have hnames : ["class_name", "method_name", "abi"].Nodup := by decide
  refine orderless_key.recovers ?_ ?_ (keyOfJson?_key key)
  · exact hnames
  · exact .cons ⟨rfl, Json.reads_quote _⟩ (.cons ⟨rfl, Json.reads_quote _⟩
      (.cons ⟨rfl, Json.reads_quote _⟩ .nil))

theorem Log.orderless : Orderless ofJson? :=
  Json.orderless_record fun f g h => by simp only [h.required, h.optional, h.defaulted]

theorem Log.recovers {log : Log} (h : log.WellFormed) :
    Recovers ofJson? 4 log.toJson log.unsigned := by
  obtain ⟨parts, hparts, hkey⟩ := recovers_key log.key
  obtain ⟨table, htable, hdetails⟩ :=
    Json.recovers_map h.sorted fun e he => Metric.recovers (h.details e he)
  have hwritten := timeOfJson?_string h.started.read?_render
  obtain ⟨summary, hsummary, hheadline⟩ : ∃ summary,
      List.Forall₂ (fun m n => m.1 = n.1 ∧ Json.Reads 3 m.2.canonical n.2)
        (Json.member? "summary" (log.headline.map Metric.toJson))
        (Json.member? "summary" summary) ∧
      Json.given? Metric.ofJson? summary = some (log.headline.map Metric.unsigned) := by
    cases hlog : log.headline with
    | none => exact ⟨none, .nil, rfl⟩
    | some m =>
        obtain ⟨w, hread, hw⟩ := Metric.recovers (h.headline m hlog)
        -- A null would be taken for a missing headline, but null is no metric.
        have hnull : w ≠ .null := by
          rintro rfl
          cases hw
        refine ⟨some w, .cons ⟨rfl, hread.mono (by decide)⟩ .nil, ?_⟩
        rw [Json.given?_of_ne hnull, hw]
        rfl
  have hnames : ["key", "created_at", "summary", "metrics"].Nodup := by decide
  refine orderless.recovers ?_ ?_ (ofJson?_members hkey hwritten hheadline hdetails)
  · cases log.headline with
    | none => exact hnames.sublist (by simp [Json.member?])
    | some m => exact hnames
  · refine List.rel_append (List.rel_append ?_ hsummary) (.cons ⟨rfl, htable⟩ .nil)
    exact .cons ⟨rfl, hparts.mono (by decide)⟩
      (.cons ⟨rfl, (Json.reads_quote _).mono (by decide)⟩ .nil)

/-- The digested text can be read, and holds the logs. -/
theorem Batch.ofText?_canonicalText {logs : List Log} (h : ∀ log ∈ logs, log.WellFormed) :
    (Json.ofText? (canonicalText logs)).bind (Json.listOf? Log.ofJson?) =
      some (logs.map Log.unsigned) :=
  (Json.recovers_list fun log hlog => Log.recovers (h log hlog)).ofText? (by decide)

theorem Batch.canonicalText_eq_iff {as bs : List Log} (ha : ∀ log ∈ as, log.WellFormed)
    (hb : ∀ log ∈ bs, log.WellFormed) :
    canonicalText as = canonicalText bs ↔ as.isEqv bs Log.numEq = true := by
  rw [isEqv_iff (r := Log.numEq) (f := Log.unsigned) fun a hmem b hmem' =>
    Log.numEq_iff (ha a hmem) (hb b hmem')]
  constructor
  · intro h
    -- one text cannot be read as two lists of logs
    have hread := ofText?_canonicalText ha
    rw [h, ofText?_canonicalText hb] at hread
    exact (Option.some.inj hread).symm
  · intro h
    have htexts (logs : List Log) : (logs.map Log.toJson).map Json.canonical =
        (logs.map Log.unsigned).map fun log => log.toJson.canonical := by
      simp [Log.canonical_unsigned]
    have hsame : (as.map Log.toJson).map Json.canonical = (bs.map Log.toJson).map Json.canonical := by
      rw [htexts, htexts, h]
    exact congrArg String.ofList (Json.canonical_array_congr hsame)

/-- Two lists of logs have one digested text just in case they are equal, and when the
digest tells two texts apart, other logs do not verify under it. -/
theorem digest_covers_logs :
    (∀ as bs : List Log, (∀ log ∈ as, log.WellFormed) → (∀ log ∈ bs, log.WellFormed) →
      (Batch.canonicalText as = Batch.canonicalText bs ↔ as.isEqv bs Log.numEq = true)) ∧
      ∀ b b' : Batch, (∀ log ∈ b.logs, log.WellFormed) → (∀ log ∈ b'.logs, log.WellFormed) →
        Digest.Separates (Batch.canonicalText b.logs) (Batch.canonicalText b'.logs) →
          b.verifies = true → b'.digest = b.digest →
            b.logs.isEqv b'.logs Log.numEq = false → b'.verifies = false := by
  constructor
  · intro as bs ha hb
    exact Batch.canonicalText_eq_iff ha hb
  · intro b b' hb hb' hseparates hverifies hdigest haltered
    simp only [Batch.verifies, beq_iff_eq, beq_eq_false_iff_ne, hdigest] at hverifies ⊢
    intro hsame
    have htexts := hseparates (hverifies.trans hsame.symm)
    rw [Batch.canonicalText_eq_iff hb hb', haltered] at htexts
    cases htexts

/-! ## A series of one sample, two zeros and a log that was removed -/

def sampledLog (v : MetricValue) : Log :=
  ⟨⟨"a", "b", ""⟩, ⟨0, 0⟩, none, [("m", ⟨"m", v, .ms, .neutral⟩)]⟩

theorem valid_epoch : (⟨0, 0⟩ : Timestamp).Valid :=
  ⟨by decide, by decide, by decide⟩

theorem wellFormed_sampledLog {v : MetricValue} (hv : v.isFinite = true) :
    (sampledLog v).WellFormed where
  started := valid_epoch
  headline := by
    rintro m ⟨⟩
  details := by
    intro e he
    rw [List.mem_singleton.1 he]
    exact hv
  sorted := List.pairwise_singleton _ _

theorem digest_covers_logs_sampled :
    Batch.canonicalText [sampledLog (.single ⟨1⟩)] ≠
        Batch.canonicalText [sampledLog (.series [⟨1⟩])] ∧
      Batch.canonicalText [sampledLog (.single .zero)] =
        Batch.canonicalText [sampledLog (.single .negativeZero)] ∧
      ∃ b b' : Batch, b.verifies = true ∧ b'.digest = b.digest ∧
        b.logs = [Log.start ⟨"", "", ""⟩ ⟨0, 0⟩] ∧ b'.logs = [] ∧ b'.verifies = false := by
  obtain ⟨htexts, hbatches⟩ := digest_covers_logs
  have hlogs {v : MetricValue} (hv : v.isFinite = true) :
      ∀ log ∈ [sampledLog v], log.WellFormed := by
    intro log hlog
    rw [List.mem_singleton.1 hlog]
    exact wellFormed_sampledLog hv
  refine ⟨?_, ?_, ?_⟩
  · rw [Ne, htexts _ _ (hlogs (by decide)) (hlogs (by decide))]
    decide
  · rw [htexts _ _ (hlogs (by decide)) (hlogs (by decide))]
    decide
  · have hstarted : ∀ log ∈ [Log.start ⟨"", "", ""⟩ ⟨0, 0⟩], log.WellFormed := by
      intro log hlog
      rw [List.mem_singleton.1 hlog]
      exact Log.fit_start _ valid_epoch
    have hseparates : Digest.Separates
        (Batch.canonicalText [Log.start ⟨"", "", ""⟩ ⟨0, 0⟩]) (Batch.canonicalText []) :=
      fun h => absurd h (by decide +kernel)
    obtain ⟨b, hverifies, hb⟩ : ∃ b : Batch, b.verifies = true ∧
        b.logs = [Log.start ⟨"", "", ""⟩ ⟨0, 0⟩] :=
      ⟨_, Batch.verifies_assemble "first" ⟨0, 0⟩ [Log.start ⟨"", "", ""⟩ ⟨0, 0⟩], rfl⟩
    refine ⟨b, { b with logs := [] }, hverifies, rfl, hb, rfl, ?_⟩
    rw [← hb] at hstarted hseparates
    exact hbatches b { b with logs := [] } hstarted (by simp) hseparates hverifies rfl
      (by simp [hb])

end Compliance.Report
