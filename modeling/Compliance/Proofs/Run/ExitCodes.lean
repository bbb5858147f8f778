import Compliance.Proofs.Run.Retries

/-!
# What status and exit code tell

The exit code of a run is derived from its results, from its delivery and from
the token.  It stays right whatever becomes of the delivery later on, and when
it is zero nothing failed and nothing is owed.
-/

namespace Compliance.Run

open Compliance.Check (Bench TestCase)
open Compliance.Device (Profile)
open Compliance.Report (Call FlushReceipt Outbox ReportError)

variable {σ : Type}

/-! ## The worst status -/

namespace Status

/-- One of the statuses that is at least as severe as all; an empty suite
passes. -/
def IsWorst (w : Status) (ss : List Status) : Prop :=
  (ss = [] ∧ w = .pass) ∨ (w ∈ ss ∧ ∀ s ∈ ss, s.severity ≤ w.severity)

theorem worse_eq_or (a b : Status) : a.worse b = a ∨ a.worse b = b := by
  unfold worse
  split
  · exact Or.inr rfl
  · exact Or.inl rfl

theorem foldl_worse (s : Status) (rest : List Status) :
    rest.foldl worse s ∈ s :: rest ∧
      ∀ t ∈ s :: rest, t.severity ≤ (rest.foldl worse s).severity := by
  induction rest generalizing s with
  | nil => simp
  | cons t rest ih =>
      obtain ⟨hmem, hle⟩ := ih (s.worse t)
      have hworse := hle (s.worse t) List.mem_cons_self
      rw [severity_worse] at hworse
      rw [List.foldl_cons]
      constructor
      · rcases List.mem_cons.1 hmem with heq | hmem
        · rw [heq]
          rcases s.worse_eq_or t with h | h <;> simp [h]
        · exact List.mem_cons_of_mem _ (List.mem_cons_of_mem _ hmem)
      · intro u hu
        rcases List.mem_cons.1 hu with rfl | hu
        · exact (Nat.le_max_left _ _).trans hworse
        · rcases List.mem_cons.1 hu with rfl | hu
          · exact (Nat.le_max_right _ _).trans hworse
          · exact hle u (List.mem_cons_of_mem _ hu)

theorem isWorst_worst (ss : List Status) : (worst ss).IsWorst ss := by
  cases ss with
  | nil => exact Or.inl ⟨rfl, rfl⟩
  | cons s rest => exact Or.inr (foldl_worse s rest)

theorem eq_error_of_le {s : Status} (h : error.severity ≤ s.severity) : s = .error := by
  cases s with
  | error => rfl
  | skipped | pass | fail => simp [severity] at h

theorem eq_fail_of_le {s : Status} (h : fail.severity ≤ s.severity) (hs : s ≠ .error) :
    s = .fail := by
  cases s with
  | fail => rfl
  | error => exact absurd rfl hs
  | skipped | pass => simp [severity] at h

theorem worse_error (s : Status) : s.worse .error = .error := by
  cases s <;> rfl

end Status

namespace ExitCode

/-- The exit code that results alone come to. -/
def ofResults (rs : List TestResult) : Nat :=
  if ∃ r ∈ rs, r.status = .error then 20
  else if ∃ r ∈ rs, r.status = .fail then 10
  else 0

theorem ofResults_eq_zero {rs : List TestResult} :
    ofResults rs = 0 ↔ ∀ r ∈ rs, r.status = .pass ∨ r.status = .skipped := by
  unfold ofResults
  constructor
  · intro h r hr
    split at h
    · cases h
    · rename_i herror
      split at h
      · cases h
      · rename_i hfail
        cases hstatus : r.status with
        | pass => exact Or.inl rfl
        | skipped => exact Or.inr rfl
        | fail => exact absurd ⟨r, hr, hstatus⟩ hfail
        | error => exact absurd ⟨r, hr, hstatus⟩ herror
  · intro h
    have hnone (s : Status) (hs : s ≠ .pass) (hs' : s ≠ .skipped) :
        ¬ ∃ r ∈ rs, r.status = s := by
      rintro ⟨r, hr, rfl⟩
      rcases h r hr with hpass | hskipped
      · exact hs hpass
      · exact hs' hskipped
    rw [if_neg (hnone .error (by decide) (by decide)),
      if_neg (hnone .fail (by decide) (by decide))]

/-- The worst status comes to what the results come to. -/
theorem value_ofStatus {w : Status} {rs : List TestResult}
    (h : w.IsWorst (rs.map (·.status))) : (ofStatus w).value = ofResults rs := by
  rcases h with ⟨hnil, rfl⟩ | ⟨hmem, hworst⟩
  · rw [List.map_eq_nil_iff] at hnil
    subst hnil
    rfl
  · obtain ⟨r, hr, rfl⟩ := List.mem_map.1 hmem
    have hle (s : Status) (hs : ∃ r' ∈ rs, r'.status = s) : s.severity ≤ r.status.severity := by
      obtain ⟨r', hr', rfl⟩ := hs
      exact hworst _ (List.mem_map_of_mem hr')
    by_cases herror : ∃ r' ∈ rs, r'.status = .error
    · rw [Status.eq_error_of_le (hle .error herror), ofResults, if_pos herror]
      rfl
    · have hnot : r.status ≠ .error := fun hstatus => herror ⟨r, hr, hstatus⟩
      by_cases hfail : ∃ r' ∈ rs, r'.status = .fail
      · rw [Status.eq_fail_of_le (hle .fail hfail) hnot, ofResults, if_neg herror,
          if_pos hfail]
        rfl
      · have hnot' : r.status ≠ .fail := fun hstatus => hfail ⟨r, hr, hstatus⟩
        rw [ofResults, if_neg herror, if_neg hfail]
        cases hstatus : r.status with
        | pass | skipped => rfl
        | fail => exact absurd hstatus hnot'
        | error => exact absurd hstatus hnot

theorem ofValue?_value (e : ExitCode) : ofValue? e.value = some e := by
  cases e <;> rfl

end ExitCode

namespace Summary

theorem countOf_add (rs : List TestResult) :
    countOf .pass rs + countOf .fail rs + countOf .error rs + countOf .skipped rs =
      rs.length := by
  induction rs with
  | nil => rfl
  | cons r rest ih =>
      simp only [countOf, List.countP_cons, List.length_cons] at ih ⊢
      cases r.status <;> simp <;> omega

theorem statusOf_true (rs : List TestResult) : statusOf rs true = .error :=
  Status.worse_error _

theorem exit_eq {m : Summary} {e : ExitCode} (h : m.exitCode = e.value) : m.exit = e := by
  rw [exit, exit?, h, ExitCode.ofValue?_value]
  rfl

theorem exitCode_withReport (m : Summary) (d : Delivery) :
    (m.withReport d).exitCode =
      if m.cancelled then 80 else if d.error.isSome then 30
      else (ExitCode.ofResults m.results : Int) := by
  have hcode : (m.withReport d).exitCode =
      (ExitCode.ofSuite (statusOf m.results d.error.isSome) m.cancelled d.error.isSome).value :=
    rfl
  rw [hcode]
  cases hcancelled : m.cancelled with
  | true => rfl
  | false =>
      cases herror : d.error.isSome with
      | true => rfl
      | false =>
          have hworst := ExitCode.value_ofStatus
            (Status.isWorst_worst (m.results.map (·.status)))
          exact congrArg Nat.cast hworst

theorem exit_withReport (m : Summary) (d : Delivery) :
    ((m.withReport d).exit.value : Int) = (m.withReport d).exitCode := by
  rw [exit_eq (m := m.withReport d) rfl]
  rfl

theorem value_exit_withReport (m : Summary) (d : Delivery) :
    (m.withReport d).exit.value =
      if m.cancelled then 80 else if d.error.isSome then 30
      else ExitCode.ofResults m.results := by
  apply Int.ofNat.inj
  refine (exit_withReport m d).trans ((exitCode_withReport m d).trans ?_)
  split
  · rfl
  · split <;> rfl

end Summary

/-! ## What follows from how a delivery stands -/

namespace Sequel.Stands

variable {waiting : Outbox} {base : Summary} {dir : Option String} {flushes : Nat}
  {q : Sequel σ} {calls : List Call} (h : q.Stands waiting base dir flushes calls)

include h

theorem results_eq : q.run.summary.results = base.results := by
  rw [h.summary]
  rfl

theorem error_eq_none :
    q.run.summary.report.error = none ↔ ∃ receipt, q.answer = .ok receipt := by
  obtain ⟨-, -, herror, hanswer⟩ := h.standing.report_agrees
  exact herror.symm.trans hanswer

theorem error_of_ok {receipt : FlushReceipt} (ha : q.answer = .ok receipt) :
    q.run.summary.report.error = none :=
  h.error_eq_none.2 ⟨receipt, ha⟩

theorem error_of_error {e : ReportError} (ha : q.answer = .error e) :
    q.run.summary.report.error.isSome = true := by
  apply Option.ne_none_iff_isSome.1
  intro hnone
  obtain ⟨receipt, hok⟩ := h.error_eq_none.1 hnone
  cases ha.symm.trans hok

theorem counts : q.run.summary.testCount = base.results.length ∧
    q.run.summary.passed + q.run.summary.failed + q.run.summary.errored +
      q.run.summary.skipped = base.results.length := by
  rw [h.summary]
  exact ⟨rfl, Summary.countOf_add base.results⟩

theorem status_of_error {e : ReportError} (ha : q.answer = .error e) :
    q.run.summary.status = .error := by
  have hstatus : q.run.summary.status =
      Summary.statusOf base.results q.run.summary.report.error.isSome :=
    congrArg Summary.status h.summary
  rw [hstatus, h.error_of_error ha, Summary.statusOf_true]

theorem status_of_ok {receipt : FlushReceipt} (ha : q.answer = .ok receipt) :
    q.run.summary.status.IsWorst (base.results.map (·.status)) := by
  have hstatus : q.run.summary.status =
      Summary.statusOf base.results q.run.summary.report.error.isSome :=
    congrArg Summary.status h.summary
  rw [hstatus, h.error_of_ok ha]
  exact Status.isWorst_worst _

/-- Cancellation goes before a failed flush, and that before the results. -/
theorem exitCode_eq : q.run.summary.exitCode =
    if base.cancelled then 80
    else match q.answer with
      | .error _ => 30
      | .ok _ => (ExitCode.ofResults base.results : Int) := by
  have hcode := congrArg Summary.exitCode h.summary
  rw [Summary.exitCode_withReport] at hcode
  rw [hcode]
  cases ha : q.answer with
  | error e =>
      rw [h.error_of_error ha]
      rfl
  | ok receipt =>
      rw [h.error_of_ok ha]
      rfl

theorem exit_eq : (q.run.summary.exit.value : Int) = q.run.summary.exitCode := by
  rw [h.summary]
  exact Summary.exit_withReport ..

/-- An exit code of zero means that the last flush succeeded and that no test
failed. -/
theorem of_exitCode_zero (hzero : q.run.summary.exitCode = 0) :
    (∃ receipt, q.answer = .ok receipt) ∧
      ∀ r ∈ base.results, r.status = .pass ∨ r.status = .skipped := by
  rw [h.exitCode_eq] at hzero
  split at hzero
  · cases hzero
  · cases ha : q.answer with
    | error e =>
        rw [ha] at hzero
        cases hzero
    | ok receipt =>
        rw [ha] at hzero
        exact ⟨⟨receipt, rfl⟩, ExitCode.ofResults_eq_zero.1 (Int.ofNat_eq_zero.1 hzero)⟩

end Sequel.Stands

/-- However often a run is told to deliver again and whatever the collectors
answer, the counts add up to its cases, the report says whether its last flush
failed, and status and exit code follow from the results, that flush and the
token.  With exit code zero nothing failed and every log was accepted. -/
theorem status_and_exitCode (o : Outlets σ) (plan : Plan) (device : Profile) (n : Naming)
    (cases : List TestCase) (b : Bench) (s : σ) (dir : Option String)
    (retries : List (Retry σ)) :
    let first := runSuite o plan device n cases b s
    let q := Sequel.after o plan device n cases b s dir retries
    let m := q.run.summary
    let box := q.run.progress.outbox
    (m.results = first.summary.results ∧ m.results.length = cases.length ∧
      m.testCount = cases.length ∧
      m.passed + m.failed + m.errored + m.skipped = m.testCount) ∧
    ((m.report.flushed = true ↔ m.report.pending = 0) ∧
      (m.report.flushed = true ↔ m.report.error = none) ∧
      (m.report.flushed = true ↔ ∃ receipt, q.answer = .ok receipt)) ∧
    ((∀ e, q.answer = .error e → m.status = .error) ∧
      ∀ receipt, q.answer = .ok receipt → m.status.IsWorst (m.results.map (·.status))) ∧
    (m.exitCode =
      (if first.progress.bench.token.isCancelled then 80
      else match q.answer with
        | .error _ => 30
        | .ok _ => (ExitCode.ofResults m.results : Int)) ∧
      (m.exit.value : Int) = m.exitCode) ∧
    (m.exitCode = 0 →
      (∀ r ∈ m.results, r.status = .pass ∨ r.status = .skipped) ∧
      box.unsent = [] ∧
      (∀ log ∈ box.logs, ∃ batch a,
        (batch, .ok a) ∈ callsAfter o plan device n cases b s dir retries ∧
          log ∈ batch.logs) ∧
      ∀ r ∈ m.results, 0 < r.metrics → ∃ log ∈ box.logs, log.key = r.id.key plan.abi) := by
  intro first q m box
  have hstands := stands_after o plan device n cases b s dir retries
  have hreported := reported_reporting o plan device n cases b s
  obtain ⟨-, hflushed, herror, hanswer⟩ := hstands.standing.report_agrees
  have hresults : m.results = (casesRun o plan device n cases b s).1 := hstands.results_eq
  have hlength : (casesRun o plan device n cases b s).1.length = cases.length := by
    have hids := congrArg List.length (ids_runSuite o plan device n cases b s)
    rwa [results_runSuite, List.length_map, List.length_map] at hids
  have htoken : (opening o plan device n cases b s).cancelled =
      first.progress.bench.token.isCancelled := by
    simp only [first, bench_runSuite]
    rfl
  obtain ⟨hcount, hsum⟩ := hstands.counts
  refine ⟨⟨hresults, ?_, hcount.trans hlength, hsum.trans hcount.symm⟩,
    ⟨hflushed, herror, hanswer⟩, ⟨fun e => hstands.status_of_error, ?_⟩,
    ⟨?_, hstands.exit_eq⟩, ?_⟩
  · rw [hresults, hlength]
  · intro receipt ha
    rw [hresults]
    exact hstands.status_of_ok ha
  · rw [hresults, ← htoken]
    exact hstands.exitCode_eq
  · intro hzero
    obtain ⟨⟨receipt, ha⟩, hpassed⟩ := hstands.of_exitCode_zero hzero
    have hunsent := Outbox.unsent_of_waiting hreported.waiting
    obtain ⟨hsent, haccepted⟩ := hstands.standing.accepted_of_ok ha hunsent
    rw [hresults]
    refine ⟨hpassed, hsent, haccepted, ?_⟩
    intro r hr hpos
    obtain ⟨log, hlog, hkey⟩ := hreported.exists_log hr hpos
    exact ⟨log, hstands.standing.logs_eq ▸ hlog, hkey⟩

end Compliance.Run
