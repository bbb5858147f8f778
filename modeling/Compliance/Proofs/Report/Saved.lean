import Compliance.Proofs.Json.Records
import Compliance.Proofs.Report.Outbox
import Compliance.Proofs.Time.Timestamp

/-!
# Logs that survive a file

A log started at a time of the calendar, with finite values under sorted names,
reads back as it was written; so do batches and outboxes of such logs.
-/

namespace Compliance.Time

/-- A time in milliseconds, no later than given. -/
def Timestamp.By (last : Nat) (t : Timestamp) : Prop :=
  ∃ ms ≤ last, t = .ofMillis ms

theorem Timestamp.By.mono {last later : Nat} {t : Timestamp} (h : t.By last)
    (hl : last ≤ later) : t.By later := by
  obtain ⟨ms, hms, rfl⟩ := h
  exact ⟨ms, hms.trans hl, rfl⟩

theorem Timestamp.By.valid {t : Timestamp} (h : t.By lastMillis) : t.Valid := by
  obtain ⟨ms, hms, rfl⟩ := h
  exact valid_ofMillis hms

end Compliance.Time

namespace Compliance.Report

open Compliance.Json (Faithful Printable)
open Compliance.Time (Timestamp)

theorem Log.timeOfJson?_string {s : String} {r : Option Timestamp}
    (h : Timestamp.read? s = r) : timeOfJson? (.string s) = r := by
  rw [timeOfJson?, Json.asString?, Option.bind_some, h]

theorem faithful_time {t : Timestamp} (h : t.Valid) :
    Faithful (fun t : Timestamp => .string t.render) Log.timeOfJson? 0 t :=
  ⟨Log.timeOfJson?_string h.read?_render, fun _ _ => by simp [Printable]⟩

/-- No list of numbers is read as a single number. -/
theorem MetricValue.ofJson?_series {w : Json} {xs : List Number.Binary64}
    (h : Json.listOf? Json.binary64? w = some xs) : ofJson? w = some (series xs) := by
  cases w with
  | array items =>
      have hnone : Json.binary64? (.array items) = none := rfl
      rw [ofJson?, hnone, h]
      rfl
  | _ => cases h

theorem MetricValue.faithful {v : MetricValue} (h : v.isFinite = true) :
    Faithful MetricValue.toJson MetricValue.ofJson? 1 v := by
  cases v with
  | single x =>
      have hx : x.isFinite = true := by simpa [isFinite, samples] using h
      exact ⟨rfl, fun _ _ => hx⟩
  | series xs =>
      have hxs : ∀ x ∈ xs, Faithful (fun x => Json.number (.real x)) Json.binary64? 0 x :=
        fun x hx => Json.faithful_real (by
          simp only [isFinite, samples, List.all_eq_true] at h
          exact h x hx)
      have hlist := Faithful.list hxs
      exact ⟨ofJson?_series hlist.decodes, hlist.printable⟩

theorem MetricUnit.choice_wire (u : MetricUnit) :
    Json.choice? .json MetricUnit.cases (.string u.wire) = some u := by
  cases u <;> rfl

theorem Judgement.choice_wire (j : Judgement) :
    Json.choice? .json Judgement.cases (.string j.wire) = some j := by
  cases j <;> rfl

theorem Metric.ofJson?_members {w : Json} {v : MetricValue}
    (h : MetricValue.ofJson? w = some v) (name : String) (unit : MetricUnit)
    (judgement : Judgement) :
    ofJson? (.object [("name", .string name), ("value", w), ("unit", .string unit.wire),
      ("type", .string judgement.wire)]) = some ⟨name, v, unit, judgement⟩ := by
  have hnames : ["name", "value", "unit", "type"].Nodup := by decide
  rw [ofJson?, Json.fields?_of_names hnames rfl, Option.bind_eq_bind, Option.bind_some]
  simp only [Json.Fields.required]
  simp only [Ordered.find?_cons_self, Ordered.find?_cons_of_ne, ne_eq, String.reduceEq,
    not_false_eq_true]
  simp only [Option.bind_eq_bind, Option.bind_some, Json.asString?, h, MetricUnit.choice_wire,
    Judgement.choice_wire, Option.pure_def]

theorem Metric.faithful {m : Metric} (h : m.value.isFinite = true) :
    Faithful Metric.toJson Metric.ofJson? 2 m := by
  have hvalue := MetricValue.faithful h
  refine ⟨ofJson?_members hvalue.decodes m.name m.unit m.judgement, fun budget hb => ?_⟩
  · have hprintable := hvalue.printable (budget - 1) (by omega)
    simp only [Metric.toJson, Json.Printable, Json.PrintableMembers, and_true, true_and]
    exact ⟨by omega, hprintable⟩

/-- The log was started when it may be, and can be written down. -/
structure Log.Fit (may : Timestamp → Prop) (log : Log) : Prop where
  started : may log.createdAt
  headline : ∀ m ∈ log.headline, m.value.isFinite = true
  details : ∀ e ∈ log.details, e.2.value.isFinite = true
  sorted : Ordered.Sorted log.details

/-- The log was started by the given time. -/
abbrev Log.Sound (last : Nat) : Log → Prop :=
  Fit (Timestamp.By last)

/-- The log was started at a time a clock can show. -/
abbrev Log.WellFormed : Log → Prop :=
  Fit Timestamp.Valid

theorem Log.Fit.imp {may could : Timestamp → Prop} {log : Log} (h : log.Fit may)
    (hm : ∀ t, may t → could t) : log.Fit could :=
  ⟨hm _ h.started, h.headline, h.details, h.sorted⟩

theorem Log.Sound.mono {last later : Nat} {log : Log} (h : log.Sound last)
    (hl : last ≤ later) : log.Sound later :=
  h.imp fun _ ht => ht.mono hl

theorem Log.Sound.wellFormed {log : Log} (h : log.Sound Timestamp.lastMillis) :
    log.WellFormed :=
  h.imp fun _ ht => ht.valid

namespace Log

variable {log log' : Log} {m : Metric}

theorem add_eq_ok (h : log.add m = .ok log') :
    m.value.isFinite = true ∧ log' = { log with details := Ordered.put m.name m log.details } := by
  unfold add at h
  split at h
  · simp at h
  · rename_i hfinite
    split at h
    · simp at h
    · simp only [Except.ok.injEq] at h
      exact ⟨by simpa using hfinite, h.symm⟩

theorem setHeadline_eq_ok (h : log.setHeadline m = .ok log') :
    m.value.isFinite = true ∧ log.headline = none ∧ log' = { log with headline := some m } := by
  unfold setHeadline at h
  split at h
  · simp at h
  · rename_i hfinite
    split at h
    · simp at h
    · rename_i hnone
      simp only [Except.ok.injEq] at h
      exact ⟨by simpa using hfinite, by simpa using hnone, h.symm⟩

theorem Fit.add {may : Timestamp → Prop} (hs : log.Fit may)
    (h : log.add m = .ok log') : log'.Fit may := by
  obtain ⟨hfinite, rfl⟩ := add_eq_ok h
  refine ⟨hs.started, hs.headline, ?_, hs.sorted.put m.name m⟩
  intro e he
  rcases Ordered.key_of_mem_put he with rfl | he
  · exact hfinite
  · exact hs.details e he

theorem Fit.setHeadline {may : Timestamp → Prop} (hs : log.Fit may)
    (h : log.setHeadline m = .ok log') : log'.Fit may := by
  obtain ⟨hfinite, _, rfl⟩ := setHeadline_eq_ok h
  refine ⟨hs.started, ?_, hs.details, hs.sorted⟩
  intro m' hm'
  cases hm'
  exact hfinite

theorem fit_start {may : Timestamp → Prop} (key : TestKey) {now : Timestamp}
    (h : may now) : (start key now).Fit may :=
  ⟨h, by simp [start], by simp [start], Ordered.sorted_nil⟩

end Log

theorem keyOfJson?_key (key : TestKey) :
    Log.keyOfJson? (.object [("class_name", .string key.className),
      ("method_name", .string key.methodName), ("abi", .string key.abi)]) = some key := by
  have hnames : ["class_name", "method_name", "abi"].Nodup := by decide
  rw [Log.keyOfJson?, Json.fields?_of_names hnames rfl, Option.bind_eq_bind, Option.bind_some]
  simp only [Json.Fields.required]
  simp only [Ordered.find?_cons_self, Ordered.find?_cons_of_ne, ne_eq, String.reduceEq,
    not_false_eq_true]
  simp only [Option.bind_eq_bind, Option.bind_some, Json.asString?, Option.pure_def]

theorem Log.ofJson?_members {parts written table : Json} {summary : Option Json}
    {key : TestKey} {started : Timestamp} {headline : Option Metric}
    {details : List (String × Metric)} (hkey : keyOfJson? parts = some key)
    (hwritten : timeOfJson? written = some started)
    (hsummary : Json.given? Metric.ofJson? summary = some headline)
    (htable : Json.mapOf? Metric.ofJson? table = some details) :
    ofJson? (.object ([("key", parts), ("created_at", written)] ++
      Json.member? "summary" summary ++ [("metrics", table)])) =
      some ⟨key, started, headline, details⟩ := by
  have hnames : ["key", "created_at", "summary", "metrics"].Nodup := by decide
  refine Option.bind_eq_some_iff.2 ⟨_, Json.fields?_of_sublist hnames ?_, ?_⟩
  · simp only [List.map_append]
    exact ((List.Sublist.refl _).append (Json.keys_member? _ _)).append (.refl _)
  · simp only [Json.Fields.required, Json.Fields.optional_eq, Json.Fields.defaulted,
      Ordered.find?_append]
    simp only [Ordered.find?_cons_self, Ordered.find?_cons_of_ne, Ordered.find?_nil,
      Json.find?_member?, ne_eq, String.reduceEq, not_false_eq_true, ↓reduceIte,
      Option.none_or, Option.or_none]
    simp only [Option.bind_eq_bind, Option.bind_some, hkey, hwritten, hsummary, htable,
      Option.pure_def]

theorem Log.WellFormed.faithful {log : Log} (h : log.WellFormed) :
    Faithful Log.toJson Log.ofJson? 4 log := by
  have htime := faithful_time h.started
  have hdetails := Faithful.map h.sorted fun e he => Metric.faithful (h.details e he)
  have hheadline : ∀ m ∈ log.headline, Faithful Metric.toJson Metric.ofJson? 2 m :=
    fun m hm => Metric.faithful (h.headline m hm)
  refine ⟨?_, fun budget hb => ?_⟩
  · refine Log.ofJson?_members (keyOfJson?_key log.key) htime.decodes ?_ hdetails.decodes
    exact Json.given?_map fun m hm => ⟨nofun, (hheadline m hm).decodes⟩
  · have htable := hdetails.printable (budget - 1) (by omega)
    simp only [Log.toJson, Json.Printable]
    refine ⟨by omega, ?_⟩
    apply Json.printableMembers_append
    · apply Json.printableMembers_append
      · simp only [Json.PrintableMembers, Json.Printable, and_true]
        omega
      · apply Json.printableMembers_member?
        intro w hw
        obtain ⟨m, hm, rfl⟩ := Option.map_eq_some_iff.1 hw
        exact (hheadline m hm).printable _ (by omega)
    · exact ⟨htable, trivial⟩

/-! ## Outboxes -/

namespace Outbox

theorem Slot.faithful {s : Slot} (h : s.log.WellFormed) :
    Faithful Slot.toJson Slot.ofJson? 5 s := by
  have hlog := h.faithful
  have hnames : ["log", "sent"].Nodup := by decide
  refine ⟨?_, fun budget hb => ?_⟩
  · rw [Slot.toJson, Slot.ofJson?, Json.fields?_of_names hnames rfl, Option.bind_eq_bind,
      Option.bind_some]
    simp only [Json.Fields.required]
    simp only [Ordered.find?_cons_self, Ordered.find?_cons_of_ne, ne_eq, String.reduceEq,
      not_false_eq_true]
    simp only [Option.bind_eq_bind, Option.bind_some, Json.asBool?, hlog.decodes,
      Option.pure_def]
  · have hprintable := hlog.printable (budget - 1) (by omega)
    simp only [Slot.toJson, Json.Printable, Json.PrintableMembers, and_true]
    exact ⟨by omega, hprintable⟩

/-- Every log of the outbox can be written down. -/
def Fit (may : Timestamp → Prop) (o : Outbox) : Prop :=
  ∀ e ∈ o.slots, e.2.log.Fit may

abbrev Sound (last : Nat) : Outbox → Prop :=
  Fit (Timestamp.By last)

abbrev WellFormed : Outbox → Prop :=
  Fit Timestamp.Valid

theorem Fit.imp {may could : Timestamp → Prop} {o : Outbox} (h : o.Fit may)
    (hm : ∀ t, may t → could t) : o.Fit could :=
  fun e he => (h e he).imp hm

theorem Sound.mono {o : Outbox} {last later : Nat} (h : o.Sound last) (hl : last ≤ later) :
    o.Sound later :=
  h.imp fun _ ht => ht.mono hl

theorem Sound.wellFormed {o : Outbox} (h : o.Sound Timestamp.lastMillis) : o.WellFormed :=
  h.imp fun _ ht => ht.valid

namespace Fit

variable {may : Timestamp → Prop} {o : Outbox} (h : o.Fit may)

include h

theorem put {key : TestKey} {s : Slot} (hs : s.log.Fit may) : (o.put key s).Fit may := by
  intro e he
  rcases Ordered.key_of_mem_put he with rfl | he
  · exact hs
  · exact h e he

theorem beginTest (key : TestKey) {now : Timestamp} (hnow : may now) :
    (o.beginTest key now).Fit may :=
  h.put (Log.fit_start key hnow)

theorem submit {log : Log} (hlog : log.Fit may) : (o.submit log).Fit may :=
  h.put hlog

theorem record (key : TestKey) (m : Metric) {now : Timestamp} (hnow : may now) :
    (o.record key m now).2.Fit may := by
  have hslot : ((o.slot? key).getD ⟨Log.start key now, false⟩).log.Fit may := by
    cases hs : o.slot? key with
    | none => exact Log.fit_start key hnow
    | some s => exact h (key, s) (Ordered.mem_of_find? hs)
  unfold Outbox.record
  cases hadd : ((o.slot? key).getD ⟨Log.start key now, false⟩).log.add m with
  | error e => simpa [hadd] using h.put hslot
  | ok log => simpa [hadd] using h.put (s := ⟨log, false⟩) (hslot.add hadd)

theorem markSent : o.markSent.Fit may := by
  intro e he
  obtain ⟨e', he', rfl⟩ := List.mem_map.1 he
  exact h e' he'

theorem unsent : ∀ log ∈ o.unsent, log.Fit may := by
  intro log hlog
  obtain ⟨e, he, rfl⟩ := List.mem_map.1 hlog
  exact h e (List.mem_filter.1 he).1

end Fit

theorem Filed.ofSlots_eq {o : Outbox} (h : o.Filed) : ofSlots (o.slots.map (·.2)) = o := by
  have hslots : (o.slots.map (·.2)).map (fun s => (s.log.key, s)) = o.slots := by
    rw [List.map_map]
    calc o.slots.map ((fun s => (s.log.key, s)) ∘ fun e => e.2)
        = o.slots.map id := List.map_congr_left fun e he => by
          simp [h.ownKey e he]
      _ = o.slots := List.map_id o.slots
  rw [ofSlots, hslots, h.sorted.putAll_eq]

theorem WellFormed.faithful {o : Outbox} (h : o.WellFormed) (hf : o.Filed) :
    Faithful toJson ofJson? 7 o := by
  have hslots : ∀ s ∈ o.slots.map (·.2), Faithful Slot.toJson Slot.ofJson? 5 s := by
    intro s hs
    obtain ⟨e, he, rfl⟩ := List.mem_map.1 hs
    exact Slot.faithful (h e he)
  have hlist := Faithful.list hslots
  have hwritten : o.slots.map (fun s => Slot.toJson s.2) =
      (o.slots.map (·.2)).map Slot.toJson := by
    rw [List.map_map]
    rfl
  have hnames : ["entries"].Nodup := by decide
  refine ⟨?_, fun budget hb => ?_⟩
  · rw [toJson, hwritten, ofJson?, Json.fields?_of_names hnames rfl, Option.bind_eq_bind,
      Option.bind_some]
    simp only [Json.Fields.required, Ordered.find?_cons_self]
    simp only [Option.bind_eq_bind, Option.bind_some, hlist.decodes, hf.ofSlots_eq,
      Option.pure_def]
  · have hprintable := hlist.printable (budget - 1) (by omega)
    rw [toJson, hwritten, Json.Printable]
    exact ⟨by omega, hprintable, trivial⟩

theorem WellFormed.ofText?_toText {o : Outbox} (h : o.WellFormed) (hf : o.Filed) :
    ofText? o.toText = some o := by
  rw [ofText?, toText]
  exact (h.faithful hf).ofText (by decide) .pretty

end Outbox

/-! ## Batches -/

namespace Batch

theorem ofJson?_members {number items : Json} {written : String} {version : Nat}
    {now : Timestamp} {logs : List Log} (schema batchId digest : String)
    (hnumber : Json.unsigned? 32 number = some version)
    (hread : Log.timeOfJson? (.string written) = some now)
    (hlogs : Json.listOf? Log.ofJson? items = some logs) :
    ofJson? (.object [("schema_version", number), ("schema_id", .string schema),
      ("batch_id", .string batchId), ("created_at", .string written), ("logs", items),
      ("digest", .string digest)]) =
      some ⟨version, schema, batchId, now, logs, digest⟩ := by
  have hnames : ["schema_version", "schema_id", "batch_id", "created_at", "logs",
      "digest"].Nodup := by decide
  rw [ofJson?, Json.fields?_of_names hnames rfl, Option.bind_eq_bind, Option.bind_some]
  simp only [Json.Fields.required]
  simp only [Ordered.find?_cons_self, Ordered.find?_cons_of_ne, ne_eq, String.reduceEq,
    not_false_eq_true]
  simp only [Option.bind_eq_bind, Option.bind_some, Json.asString?, hnumber, hread, hlogs,
    Option.pure_def]

theorem faithful {b : Batch} (hv : b.schemaVersion < 2 ^ 32)
    (ht : b.createdAt.Valid) (hl : ∀ log ∈ b.logs, log.WellFormed) :
    Faithful toJson ofJson? 6 b := by
  have hversion := Json.faithful_nat (by omega) hv
  have hlist := Faithful.list fun log hlog => (hl log hlog).faithful
  refine ⟨?_, fun budget hb => ?_⟩
  · rw [toJson, ofJson?_members b.schemaId b.batchId b.digest hversion.decodes
      (faithful_time ht).decodes hlist.decodes]
  · have hnumber := hversion.printable (budget - 1) (by omega)
    have hlogs := hlist.printable (budget - 1) (by omega)
    simp only [toJson, Json.Printable, Json.PrintableMembers, and_true, true_and]
    exact ⟨by omega, hnumber, hlogs⟩

theorem ofText?_assemble (batchId : String) {now : Timestamp} {logs : List Log}
    (ht : now.Valid) (hl : ∀ log ∈ logs, log.WellFormed) :
    ofText? (assemble batchId now logs).toText = some (assemble batchId now logs) := by
  have hversion : (assemble batchId now logs).schemaVersion < 2 ^ 32 := by
    simp [assemble, currentVersion]
  rw [ofText?, toText]
  exact (faithful hversion ht hl).ofText (by decide) .pretty

end Batch

end Compliance.Report
