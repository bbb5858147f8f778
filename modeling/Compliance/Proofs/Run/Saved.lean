import Compliance.Proofs.Report.Keys
import Compliance.Proofs.Report.Saved
import Compliance.Run.State
import Compliance.Run.Summary

/-!
# Summaries that survive a file

Counts and durations fit their fields, times are on the calendar, and a test id
is found again in its text; so a summary reads back as it was written, and so
does a state.  A summary stays so when its delivery changes.
-/

namespace Compliance.Run

open Compliance.Check (FailureCause)
open Compliance.Json (Faithful)
open Compliance.Report (TestId faithful_time)
open Compliance.Time (Timestamp)

theorem Status.choice_wire (s : Status) :
    Json.choice? .json Status.cases (.string s.wire) = some s := by
  cases s <;> rfl

theorem FailureCause.choice_wire (c : FailureCause) :
    Json.choice? .json FailureCause.cases (.string c.wire) = some c := by
  cases c <;> rfl

/-! ## Results -/

namespace TestResult

/-- The result came by the given time and can be written down. -/
structure Sound (last : Nat) (r : TestResult) : Prop where
  started : r.startedAt.By last
  duration : r.durationMs ≤ last
  metrics : r.metrics < 2 ^ 64

/-- The time is one a clock can show and the counts fit their fields. -/
structure WellFormed (r : TestResult) : Prop where
  started : r.startedAt.Valid
  duration : r.durationMs < 2 ^ 64
  metrics : r.metrics < 2 ^ 64

theorem Sound.wellFormed {r : TestResult} (h : r.Sound Timestamp.lastMillis) :
    r.WellFormed :=
  ⟨h.started.valid, lt_of_le_of_lt h.duration (by simp [Timestamp.lastMillis]), h.metrics⟩

theorem ofJson?_members {idText written : String} {id : TestId} {status : Json}
    {s : Status} {cause : Option FailureCause} {detail : Option String} {now : Timestamp}
    {duration metrics : Json} {ms count : Nat} (hid : TestId.ofText? idText = some id)
    (hs : Json.choice? .json Status.cases status = some s)
    (hread : Report.Log.timeOfJson? (.string written) = some now)
    (hms : Json.unsigned? 64 duration = some ms)
    (hcount : Json.unsigned? 64 metrics = some count) :
    ofJson? (.object ([("id", .string idText), ("status", status)] ++
      Json.member? "cause" (cause.map fun c => .string c.wire) ++
      Json.member? "detail" (detail.map .string) ++
      [("started_at", .string written), ("duration_ms", duration),
        ("metrics", metrics)])) = some ⟨id, s, cause, detail, now, ms, count⟩ := by
  have hnames : ["id", "status", "cause", "detail", "started_at", "duration_ms",
      "metrics"].Nodup := by decide
  have hcause : Json.given? (Json.choice? .json FailureCause.cases)
      (cause.map fun c => .string c.wire) = some cause :=
    Json.given?_map fun c _ => ⟨nofun, FailureCause.choice_wire c⟩
  have hdetail : Json.given? Json.asString? (detail.map .string) = some detail :=
    Json.given?_map fun _ _ => ⟨nofun, rfl⟩
  refine Option.bind_eq_some_iff.2 ⟨_, Json.fields?_of_sublist hnames ?_, ?_⟩
  · simp only [List.map_append]
    exact (((List.Sublist.refl _).append (Json.keys_member? _ _)).append
      (Json.keys_member? _ _)).append (.refl _)
  · simp only [Json.Fields.required, Json.Fields.omittable_eq, Ordered.find?_append]
    simp only [Ordered.find?_cons_self, Ordered.find?_cons_of_ne, Ordered.find?_nil,
      Json.find?_member?, ne_eq, String.reduceEq, not_false_eq_true, ↓reduceIte,
      Option.none_or, Option.or_none]
    simp only [Option.bind_eq_bind, Option.bind_some, Json.asString?, hid, hs, hcause, hdetail,
      hread, hms, hcount, Option.pure_def]

theorem WellFormed.faithful {r : TestResult} (h : r.WellFormed) :
    Faithful toJson ofJson? 1 r := by
  have hduration := Json.faithful_nat (w := 64) (by omega) h.duration
  have hmetrics := Json.faithful_nat (w := 64) (by omega) h.metrics
  refine ⟨?_, fun budget hb => ?_⟩
  · rw [toJson, ofJson?_members r.id.ofText?_text r.status.choice_wire
      (faithful_time h.started).decodes hduration.decodes hmetrics.decodes]
  · rw [toJson, Json.Printable]
    refine ⟨by omega, ?_⟩
    apply Json.printableMembers_append
    · apply Json.printableMembers_append
      · apply Json.printableMembers_append
        · simp only [Json.PrintableMembers, Json.Printable, and_true]
        · exact Json.printableMembers_text _ _
      · exact Json.printableMembers_text _ _
    · simp only [Json.PrintableMembers, Json.Printable, and_true, true_and]
      exact ⟨hduration.printable _ (by omega), hmetrics.printable _ (by omega)⟩

end TestResult

/-! ## Deliveries -/

namespace Delivery

/-- The counts fit their fields. -/
structure Sound (d : Delivery) : Prop where
  sent : d.logsSent < 2 ^ 64
  pending : d.pending < 2 ^ 64

theorem ofJson?_members {flushed : Bool} {batchId location error dir : Option String}
    {logsSent pending : Json} {sent waiting : Nat}
    (hsent : Json.unsigned? 64 logsSent = some sent)
    (hpending : Json.unsigned? 64 pending = some waiting) :
    ofJson? (.object ([("flushed", .bool flushed), ("logs_sent", logsSent),
        ("pending", pending)] ++
      Json.member? "batch_id" (batchId.map .string) ++
      Json.member? "location" (location.map .string) ++
      Json.member? "error" (error.map .string) ++
      Json.member? "dir" (dir.map .string))) =
      some ⟨flushed, sent, waiting, batchId, location, error, dir⟩ := by
  have hnames : ["flushed", "logs_sent", "pending", "batch_id", "location", "error",
      "dir"].Nodup := by decide
  have htext (a : Option String) : Json.given? Json.asString? (a.map .string) = some a :=
    Json.given?_map fun _ _ => ⟨nofun, rfl⟩
  refine Option.bind_eq_some_iff.2 ⟨_, Json.fields?_of_sublist hnames ?_, ?_⟩
  · simp only [List.map_append]
    exact ((((List.Sublist.refl _).append (Json.keys_member? _ _)).append
      (Json.keys_member? _ _)).append (Json.keys_member? _ _)).append (Json.keys_member? _ _)
  · simp only [Json.Fields.required, Json.Fields.omittable_eq, Ordered.find?_append]
    simp only [Ordered.find?_cons_self, Ordered.find?_cons_of_ne, Ordered.find?_nil,
      Json.find?_member?, ne_eq, String.reduceEq, not_false_eq_true, ↓reduceIte,
      Option.none_or, Option.or_none]
    simp only [Option.bind_eq_bind, Option.bind_some, Json.asBool?, hsent, hpending, htext,
      Option.pure_def]

theorem Sound.faithful {d : Delivery} (h : d.Sound) : Faithful toJson ofJson? 1 d := by
  have hsent := Json.faithful_nat (w := 64) (by omega) h.sent
  have hpending := Json.faithful_nat (w := 64) (by omega) h.pending
  refine ⟨?_, fun budget hb => ?_⟩
  · rw [toJson, ofJson?_members hsent.decodes hpending.decodes]
  · rw [toJson, Json.Printable]
    refine ⟨by omega, ?_⟩
    iterate 4 apply Json.printableMembers_append _ (Json.printableMembers_text _ _)
    simp only [Json.PrintableMembers, Json.Printable, and_true, true_and]
    exact ⟨hsent.printable _ (by omega), hpending.printable _ (by omega)⟩

theorem sound_none : none.Sound :=
  ⟨by decide, by decide⟩

theorem pending_afterFlush (d : Delivery) (unsent : Nat)
    (flush : Except Report.ReportError Report.FlushReceipt) :
    (d.afterFlush unsent flush).pending = unsent := by
  unfold afterFlush
  split
  · split
    · rename_i hzero
      exact hzero.2.symm
    · rfl
  · rfl

theorem Sound.afterFlush {d : Delivery} (h : d.Sound) {unsent : Nat}
    (hu : unsent < 2 ^ 64) {flush : Except Report.ReportError Report.FlushReceipt}
    (hs : ∀ r, flush = .ok r → r.sent < 2 ^ 64) : (d.afterFlush unsent flush).Sound := by
  refine ⟨?_, by rw [pending_afterFlush]; exact hu⟩
  unfold Delivery.afterFlush
  split
  · rename_i r
    split
    · exact h.sent
    · exact hs r rfl
  · exact Nat.two_pow_pos 64

end Delivery

/-! ## Summaries -/

theorem ExitCode.value_fits (e : ExitCode) :
    -2 ^ 31 ≤ (e.value : Int) ∧ (e.value : Int) < 2 ^ 31 := by
  cases e <;> decide

namespace Summary

/-- What the results decide agrees with them, and everything can be written
down. -/
structure Sound (m : Summary) : Prop where
  version : m.schemaVersion < 2 ^ 32
  created : m.createdAt.By Timestamp.lastMillis
  duration : m.durationMs ≤ Timestamp.lastMillis
  results : ∀ r ∈ m.results, r.Sound Timestamp.lastMillis
  few : m.results.length < 2 ^ 64
  report : m.report.Sound
  recomputed : m.recompute = m

theorem ofJson?_members {schema suite name abi human written : String} {cancelled : Bool}
    {version statusText code total good bad wrong left span items delivery : Json}
    {v n passed failed errored skipped ms : Nat} {now : Timestamp} {s : Status} {exit : Int}
    {rs : List TestResult} {d : Delivery}
    (hv : Json.unsigned? 32 version = some v)
    (hread : Report.Log.timeOfJson? (.string written) = some now)
    (hs : Json.choice? .json Status.cases statusText = some s)
    (hexit : Json.signed? 32 code = some exit)
    (hn : Json.unsigned? 64 total = some n) (hp : Json.unsigned? 64 good = some passed)
    (hf : Json.unsigned? 64 bad = some failed) (he : Json.unsigned? 64 wrong = some errored)
    (hk : Json.unsigned? 64 left = some skipped) (hms : Json.unsigned? 64 span = some ms)
    (hrs : Json.listOf? TestResult.ofJson? items = some rs)
    (hd : Delivery.ofJson? delivery = some d) :
    ofJson? (.object [("schema_version", version), ("schema_id", .string schema),
      ("suite_id", .string suite), ("suite_name", .string name), ("abi", .string abi),
      ("created_at", .string written), ("status", statusText), ("exit_code", code),
      ("test_count", total), ("passed", good), ("failed", bad), ("errored", wrong),
      ("skipped", left), ("cancelled", .bool cancelled), ("duration_ms", span),
      ("results", items), ("report", delivery), ("human_summary", .string human)]) =
      some ⟨v, schema, suite, name, abi, now, s, exit, n, passed, failed, errored, skipped,
        cancelled, ms, rs, d, human⟩ := by
  have hnames : fieldNames.Nodup := by decide
  rw [ofJson?, Json.fields?_of_names hnames rfl, Option.bind_eq_bind, Option.bind_some]
  simp only [Json.Fields.required]
  simp only [Ordered.find?_cons_self, Ordered.find?_cons_of_ne, ne_eq, String.reduceEq,
    not_false_eq_true]
  simp only [Option.bind_eq_bind, Option.bind_some, Json.asString?, Json.asBool?, hv, hread, hs,
    hexit, hn, hp, hf, he, hk, hms, hrs, hd, Option.pure_def]

/-- The times are ones a clock can show and the numbers fit their fields. -/
structure WellFormed (m : Summary) : Prop where
  version : m.schemaVersion < 2 ^ 32
  created : m.createdAt.Valid
  exitCode : -2 ^ 31 ≤ m.exitCode ∧ m.exitCode < 2 ^ 31
  testCount : m.testCount < 2 ^ 64
  passed : m.passed < 2 ^ 64
  failed : m.failed < 2 ^ 64
  errored : m.errored < 2 ^ 64
  skipped : m.skipped < 2 ^ 64
  duration : m.durationMs < 2 ^ 64
  results : ∀ r ∈ m.results, r.WellFormed
  report : m.report.Sound

theorem Sound.count {m : Summary} (h : m.Sound) (s : Status) :
    countOf s m.results < 2 ^ 64 :=
  lt_of_le_of_lt List.countP_le_length h.few

theorem Sound.wellFormed {m : Summary} (h : m.Sound) : m.WellFormed where
  version := h.version
  created := h.created.valid
  exitCode := (congrArg Summary.exitCode h.recomputed) ▸ ExitCode.value_fits _
  testCount := (congrArg Summary.testCount h.recomputed) ▸ h.few
  passed := (congrArg Summary.passed h.recomputed) ▸ h.count .pass
  failed := (congrArg Summary.failed h.recomputed) ▸ h.count .fail
  errored := (congrArg Summary.errored h.recomputed) ▸ h.count .error
  skipped := (congrArg Summary.skipped h.recomputed) ▸ h.count .skipped
  duration := lt_of_le_of_lt h.duration (by simp [Timestamp.lastMillis])
  results := fun r hr => (h.results r hr).wellFormed
  report := h.report

theorem WellFormed.faithful {m : Summary} (h : m.WellFormed) :
    Faithful toJson ofJson? 3 m := by
  have hversion := Json.faithful_nat (w := 32) (by omega) h.version
  have hcode := Json.faithful_int h.exitCode
  have hcounted (n : Nat) (hn : n < 2 ^ 64) := Json.faithful_nat (w := 64) (by omega) hn
  have htotal := hcounted m.testCount h.testCount
  have hpassed := hcounted m.passed h.passed
  have hfailed := hcounted m.failed h.failed
  have herrored := hcounted m.errored h.errored
  have hskipped := hcounted m.skipped h.skipped
  have hduration := hcounted m.durationMs h.duration
  have hresults := Faithful.list fun r hr => (h.results r hr).faithful
  have hreport := h.report.faithful
  refine ⟨?_, fun budget hb => ?_⟩
  · rw [toJson, ofJson?_members hversion.decodes (faithful_time h.created).decodes
      m.status.choice_wire hcode.decodes htotal.decodes hpassed.decodes
      hfailed.decodes herrored.decodes hskipped.decodes hduration.decodes hresults.decodes
      hreport.decodes]
  · have hexit := hcode.printable (budget - 1) (by omega)
    simp only [toJson, Json.Printable, Json.PrintableMembers, and_true, true_and]
    exact ⟨by omega, hversion.printable _ (by omega), hexit, htotal.printable _ (by omega),
      hpassed.printable _ (by omega), hfailed.printable _ (by omega),
      herrored.printable _ (by omega), hskipped.printable _ (by omega),
      hduration.printable _ (by omega), hresults.printable _ (by omega),
      hreport.printable _ (by omega)⟩

theorem WellFormed.ofText?_toText {m : Summary} (h : m.WellFormed) :
    ofText? m.toText = some m := by
  rw [ofText?, toText]
  exact h.faithful.ofText (by decide) .pretty

theorem sound_ofResults {h : Heading} {rs : List TestResult} {cancelled : Bool}
    {ms now : Nat} (hms : ms ≤ Timestamp.lastMillis) (hnow : now ≤ Timestamp.lastMillis)
    (hrs : ∀ r ∈ rs, r.Sound Timestamp.lastMillis) (hfew : rs.length < 2 ^ 64) :
    (ofResults h rs cancelled ms (.ofMillis now)).Sound := by
  refine ⟨?_, ⟨now, hnow, rfl⟩, hms, hrs, hfew, Delivery.sound_none, rfl⟩
  show 1 < 2 ^ 32
  omega

theorem Sound.withReport {m : Summary} (h : m.Sound) {d : Delivery} (hd : d.Sound) :
    (m.withReport d).Sound :=
  ⟨h.version, h.created, h.duration, h.results, h.few, hd, rfl⟩

end Summary

/-! ## States -/

theorem Stage.choice_wire (s : Stage) :
    Json.choice? .json Stage.cases (.string s.wire) = some s := by
  cases s <;> rfl

theorem Phase.choice_wire (p : Phase) :
    Json.choice? .json Phase.cases (.string p.wire) = some p := by
  cases p <;> rfl

namespace State

theorem CurrentTest.ofJson?_members {number : Json} {index : Nat} (testId : String)
    (phase : Phase) (hindex : Json.unsigned? 64 number = some index) :
    CurrentTest.ofJson? (.object [("index", number), ("test_id", .string testId),
      ("phase", .string phase.wire)]) = some ⟨index, testId, phase⟩ := by
  have hnames : ["index", "test_id", "phase"].Nodup := by decide
  rw [CurrentTest.ofJson?, Json.fields?_of_names hnames rfl, Option.bind_eq_bind,
    Option.bind_some]
  simp only [Json.Fields.required]
  simp only [Ordered.find?_cons_self, Ordered.find?_cons_of_ne, ne_eq, String.reduceEq,
    not_false_eq_true]
  simp only [Option.bind_eq_bind, Option.bind_some, Json.asString?, hindex, Phase.choice_wire,
    Option.pure_def]

theorem CurrentTest.faithful {c : CurrentTest} (h : c.index < 2 ^ 64) :
    Faithful CurrentTest.toJson CurrentTest.ofJson? 1 c := by
  have hindex := Json.faithful_nat (w := 64) (by omega) h
  refine ⟨?_, fun budget hb => ?_⟩
  · rw [CurrentTest.toJson, CurrentTest.ofJson?_members _ _ hindex.decodes]
  · have hprintable := hindex.printable (budget - 1) (by omega)
    simp only [CurrentTest.toJson, Json.Printable, Json.PrintableMembers, and_true]
    exact ⟨by omega, hprintable⟩

/-- The times are ones a clock can show and the numbers fit their fields. -/
structure WellFormed (s : State) : Prop where
  version : s.schemaVersion < 2 ^ 32
  created : s.createdAt.Valid
  updated : s.updatedAt.Valid
  current : ∀ c ∈ s.current, c.index < 2 ^ 64
  completed : s.completed < 2 ^ 64
  total : s.total < 2 ^ 64
  seq : s.seq < 2 ^ 64

theorem ofJson?_members {schema suite begun changed : String}
    {version stageText good total number : Json} {v completed n seq : Nat} {stage : Stage}
    {createdAt updatedAt : Timestamp} {current : Option CurrentTest}
    (hv : Json.unsigned? 32 version = some v)
    (hstage : Json.choice? .json Stage.cases stageText = some stage)
    (hbegun : Report.Log.timeOfJson? (.string begun) = some createdAt)
    (hchanged : Report.Log.timeOfJson? (.string changed) = some updatedAt)
    (hcurrent : ∀ c ∈ current, CurrentTest.ofJson? (CurrentTest.toJson c) = some c)
    (hgood : Json.unsigned? 64 good = some completed)
    (htotal : Json.unsigned? 64 total = some n)
    (hnumber : Json.unsigned? 64 number = some seq) :
    ofJson? (.object ([("schema_version", version), ("schema_id", .string schema),
        ("suite_id", .string suite), ("state", stageText), ("created_at", .string begun),
        ("updated_at", .string changed)] ++
      Json.member? "current_test" (current.map CurrentTest.toJson) ++
      [("completed", good), ("total", total), ("seq", number)])) =
      some ⟨v, schema, suite, stage, createdAt, updatedAt, current, completed, n, seq⟩ := by
  have hnames : fieldNames.Nodup := by decide
  have htest : Json.given? CurrentTest.ofJson? (current.map CurrentTest.toJson) = some current :=
    Json.given?_map fun c hc => ⟨nofun, hcurrent c hc⟩
  refine Option.bind_eq_some_iff.2 ⟨_, Json.fields?_of_sublist hnames ?_, ?_⟩
  · simp only [List.map_append]
    exact ((List.Sublist.refl _).append (Json.keys_member? _ _)).append (.refl _)
  · simp only [Json.Fields.required, Json.Fields.optional_eq, Ordered.find?_append]
    simp only [Ordered.find?_cons_self, Ordered.find?_cons_of_ne, Ordered.find?_nil,
      Json.find?_member?, ne_eq, String.reduceEq, not_false_eq_true, ↓reduceIte,
      Option.none_or, Option.or_none]
    simp only [Option.bind_eq_bind, Option.bind_some, Json.asString?, hv, hstage, hbegun, hchanged,
      htest, hgood, htotal, hnumber, Option.pure_def]

theorem WellFormed.faithful {s : State} (h : s.WellFormed) : Faithful toJson ofJson? 2 s := by
  have hversion := Json.faithful_nat (w := 32) (by omega) h.version
  have hcurrent : ∀ c ∈ s.current, Faithful CurrentTest.toJson CurrentTest.ofJson? 1 c :=
    fun c hc => CurrentTest.faithful (h.current c hc)
  have hcompleted := Json.faithful_nat (w := 64) (by omega) h.completed
  have htotal := Json.faithful_nat (w := 64) (by omega) h.total
  have hseq := Json.faithful_nat (w := 64) (by omega) h.seq
  refine ⟨?_, fun budget hb => ?_⟩
  · rw [toJson, ofJson?_members hversion.decodes s.stage.choice_wire
      (faithful_time h.created).decodes (faithful_time h.updated).decodes
      (fun c hc => (hcurrent c hc).decodes) hcompleted.decodes htotal.decodes hseq.decodes]
  · rw [toJson, Json.Printable]
    refine ⟨by omega, ?_⟩
    apply Json.printableMembers_append
    · apply Json.printableMembers_append
      · simp only [Json.PrintableMembers, Json.Printable, and_true]
        exact hversion.printable _ (by omega)
      · apply Json.printableMembers_member?
        intro w hw
        obtain ⟨c, hc, rfl⟩ := Option.map_eq_some_iff.1 hw
        exact (hcurrent c hc).printable _ (by omega)
    · simp only [Json.PrintableMembers, and_true]
      exact ⟨hcompleted.printable _ (by omega), htotal.printable _ (by omega),
        hseq.printable _ (by omega)⟩

theorem WellFormed.ofText?_toText {s : State} (h : s.WellFormed) :
    ofText? s.toText = some s := by
  rw [ofText?, toText]
  exact h.faithful.ofText (by decide) .pretty

end State

end Compliance.Run
