import Mathlib
import Compliance.Proofs.Check.Orderly
import Compliance.Proofs.Run.Cancellation
import Compliance.Proofs.Text.Joined

/-!
# Verdicts on a free device

A case that borrows its session finds a free device and leaves it free, so it is
skipped just when the device lacks something.  If it is orderly as well, it comes
to a verdict on the device and to no error.
-/

namespace Compliance.Run

open Compliance.Check (Bench Context Failure FailureCause Program SkipReason TestCase)
open Compliance.Device (Capability Profile Script)

/-! ## Details -/

theorem sanitize_of_all {detail : String} (h : detail.toList.all isXmlChar = true) :
    sanitize detail = detail := by
  rw [sanitize, List.filter_eq_self.2 (List.all_eq_true.1 h), String.ofList_toList]

theorem isXmlChar_of_isNameChar {c : Char} (h : Device.isNameChar c = true) :
    isXmlChar c = true := by
  have hrange (a b : Char) (ha : ' ' ≤ a) (hb : b ≤ '\uFFFD') (hac : a ≤ c) (hcb : c ≤ b) :
      isXmlChar c = true := by
    simp [isXmlChar, Char.le_trans ha hac, Char.le_trans hcb hb]
  simp only [Device.isNameChar, Char.isLower, Char.isDigit, Bool.or_eq_true, Bool.and_eq_true,
    decide_eq_true_eq, beq_iff_eq] at h
  rcases h with (((⟨h, h'⟩ | ⟨h, h'⟩) | rfl) | rfl) | rfl
  · exact hrange 'a' 'z' (by decide) (by decide) h h'
  · exact hrange '0' '9' (by decide) (by decide) h h'
  all_goals rfl

theorem message_missing (cs : List Capability) : (SkipReason.missing cs).message =
    "missing capabilities: " ++ ", ".intercalate (cs.map (·.name)) := rfl

theorem sanitize_missing (cs : List Capability) :
    sanitize ("missing capabilities: " ++ ", ".intercalate (cs.map (·.name))) =
      "missing capabilities: " ++ ", ".intercalate (cs.map (·.name)) := by
  have hlead : "missing capabilities: ".toList.all isXmlChar = true := rfl
  have hsep : ", ".toList.all isXmlChar = true := rfl
  have hname (part : List Char) (h : part ∈ (cs.map (·.name)).map String.toList) :
      part.all isXmlChar = true := by
    rw [List.map_map] at h
    obtain ⟨capability, -, rfl⟩ := List.mem_map.1 h
    apply List.all_eq_true.2
    intro c hc
    exact isXmlChar_of_isNameChar (List.all_eq_true.1 capability.valid.2.2.2 c hc)
  apply sanitize_of_all
  rw [String.toList_append, List.all_append, hlead, String.toList_intercalate,
    Text.all_intercalate hsep hname]
  rfl

/-- What a device lacks is told in full. -/
theorem detail_skipped_missing (id : Report.TestId) (span : Span) (cs : List Capability) :
    (TestResult.skipped id span (.missing cs)).detail =
      some ("missing capabilities: " ++ ", ".intercalate (cs.map (·.name))) := by
  simp only [TestResult.skipped, TestResult.keptDetail, message_missing, Option.map_some,
    sanitize_missing]
  simp

/-! ## One case -/

/-- Nobody is on the device. -/
structure Vacant (script : Script) (b : Bench) : Prop where
  serves : b.Serves script b.token
  session : b.session = none

theorem Vacant.held {script : Script} {b : Bench} (h : Vacant script b) :
    b.platform.held = .empty := by
  rw [h.serves.held, Bench.holding, h.session]
  rfl

theorem Vacant.openHandles {script : Script} {b : Bench} (h : Vacant script b) :
    b.platform.openHandles = 0 := by
  rw [Device.Platform.openHandles, h.held]
  rfl

/-- A verdict on the device: a pass, a failure that is not the fault of the
check, or a skip for what the device lacks. -/
inductive Verdict (device : Profile) (c : TestCase) (r : TestResult) : Prop where
  | passed (hs : r.status = .pass) (hc : r.cause = none)
  | failed (f : FailureCause) (hf : f.isFinding = true) (hs : r.status = .fail)
      (hc : r.cause = some f)
  | lacking (hm : device.missing c.requires ≠ []) (hs : r.status = .skipped)
      (hc : r.cause = none)
      (hd : r.detail = some ("missing capabilities: " ++
        ", ".intercalate ((device.missing c.requires).map (·.name))))

namespace Verdict

variable {device : Profile} {c : TestCase} {r : TestResult}

theorem status_ne_error (h : Verdict device c r) : r.status ≠ .error := by
  cases h with
  | passed hs | failed _ _ hs | lacking _ hs => simp [hs]

theorem congr {c' : TestCase} (h : Verdict device c r) (hrequires : c.requires = c'.requires) :
    Verdict device c' r := by
  cases h with
  | passed hs hc => exact .passed hs hc
  | failed f hf hs hc => exact .failed f hf hs hc
  | lacking hm hs hc hd =>
      rw [hrequires] at hm hd
      exact .lacking hm hs hc hd

theorem of_failed (id : Report.TestId) (span : Span) {f : Failure}
    (hf : f.cause.isFinding = true) (n : Nat) :
    Verdict device c ((TestResult.failed id span f).withMetrics n) := by
  have herror : f.cause.isError = false := by
    cases hcause : f.cause <;> simp_all [FailureCause.isFinding, FailureCause.isError]
  refine .failed f.cause hf ?_ rfl
  simp [TestResult.failed, TestResult.withMetrics, herror]

theorem of_missing (id : Report.TestId) (span : Span)
    (hm : device.missing c.requires ≠ []) :
    Verdict device c (.skipped id span (.missing (device.missing c.requires))) :=
  .lacking hm rfl rfl (detail_skipped_missing id span _)

end Verdict

section Case

variable {σ : Type} {script : Script} (o : Outlets σ) (plan : Plan) (index : Nat)
  {c : TestCase} {p : Progress σ}

/-- What a case that borrows its session comes to on a free device, but for its
cleanup. -/
inductive Loan (script : Script) (c : TestCase) (p : Progress σ) :
    TestResult × Progress σ → Prop where
  | cancelled (h : p.bench.token.isCancelled = true) :
      Loan script c p (.failed c.id (spanFrom p.bench.clock p.bench) cancelledBefore, p)
  | lacking (hm : script.profile.missing c.requires ≠ []) :
      Loan script c p (.skipped c.id (spanFrom p.bench.clock p.bench)
        (.missing (script.profile.missing c.requires)), p)
  | executed (hm : script.profile.missing c.requires = []) {b : Bench} {capability : Capability}
      (hsession : b.session = some ⟨capability, [], true⟩)
      (hresponses : b.platform.responses = script.responses) :
      Loan script c p (execute plan c p.bench.clock
        (((p.enter index c .prepare).setBench b).enter index c .execute))

/-- Preparation takes the session when the device lacks nothing. -/
theorem attempt_loan (hc : c.Borrows) (hp : Vacant script p.bench) :
    Loan plan index script c p (attempt plan script.profile index c p) := by
  have hprepared (hm : script.profile.missing c.requires = []) :
      ∃ capability, (c.prepare.run p.bench).1 = .returned () ∧
        (c.prepare.run p.bench).2.session = some ⟨capability, [], true⟩ ∧
        (c.prepare.run p.bench).2.platform.responses = script.responses := by
    obtain ⟨⟨capability, hmem, htakes⟩, -⟩ := hc
    obtain ⟨havailable, hfree⟩ := hp.serves.free_of_required hp.session hm hmem
    obtain ⟨hreturned, hsession, hresponses⟩ := htakes.run hp.session havailable hfree
    exact ⟨capability, hreturned, hsession, hresponses.trans hp.serves.responses⟩
  have hcourse := attempt_course plan script.profile index c p
  generalize attempt plan script.profile index c p = out at hcourse ⊢
  cases hcourse with
  | cancelled h => exact .cancelled h
  | lacking _ hm => exact .lacking hm
  | refused _ hm _ _ hrun | brokenDown _ hm _ _ hrun =>
      obtain ⟨_, hreturned, -⟩ := hprepared hm
      rw [hrun] at hreturned
      cases hreturned
  | executed _ hm b hrun =>
      obtain ⟨capability, -, hsession, hresponses⟩ := hprepared hm
      rw [hrun] at hsession hresponses
      exact .executed hm hsession hresponses

theorem serves_attempt (h : p.bench.Serves script p.bench.token) :
    (attempt plan script.profile index c p).2.bench.Serves script
      (attempt plan script.profile index c p).2.bench.token := by
  have hcourse := attempt_course plan script.profile index c p
  generalize attempt plan script.profile index c p = out at hcourse ⊢
  cases hcourse with
  | cancelled | lacking => exact h
  | refused _ _ _ b hrun | brokenDown _ _ _ b hrun =>
      have hb := c.prepare.serves_run h
      rw [hrun] at hb
      exact hb
  | executed _ _ b hrun =>
      have hb := c.prepare.serves_run h
      rw [hrun] at hb
      exact c.execute.serves_run _ hb

/-- A case that borrows its session leaves the device free again, and its
cleanup has no say in its result. -/
theorem vacant_runCase (hc : c.Borrows) (hp : Vacant script p.bench) :
    Vacant script (runCase o plan script.profile index c p).2.bench ∧
      (runCase o plan script.profile index c p).1 =
        (attempt plan script.profile index c p).1 := by
  have hstart : p.setBench { p.bench with session := none } = p := by
    obtain ⟨⟨clock, token, platform, session⟩, outbox, state, store, journal⟩ := p
    cases hp.session
    rfl
  have hattempt := serves_attempt plan index (c := c) hp.serves
  obtain ⟨hquiet, hsession⟩ := hc.cleanup.run (attempt plan script.profile index c p).2.bench
  have hcleanup := c.cleanup.serves_run hattempt
  simp only [runCase, hstart, Progress.bench_enter, hquiet]
  exact ⟨⟨hcleanup, hsession⟩, rfl⟩

theorem verdict_execute {device : Profile} (start : Nat)
    (h : (c.execute.run (Context.start c.id plan.abi plan.timeouts p.bench)
      p.bench).ending.IsFinding) : Verdict device c (execute plan c start p).1 := by
  unfold execute
  simp only
  generalize hrun : c.execute.run (Context.start c.id plan.abi plan.timeouts p.bench) p.bench =
    f at h ⊢
  cases hending : f.ending with
  | returned outcome =>
      cases hlate : (Context.start c.id plan.abi plan.timeouts p.bench).deadline.isExpired
        f.bench.clock with
      | true => exact .of_failed _ _ rfl _
      | false => exact .passed rfl rfl
  | stopped failure =>
      rw [hending] at h
      exact .of_failed _ _ h _
  | panicked q =>
      rw [hending] at h
      exact h.elim

theorem verdict_attempt (hc : c.Orderly script plan.timeouts.test)
    (hp : Vacant script p.bench) :
    Verdict script.profile c (attempt plan script.profile index c p).1 := by
  have hloan := attempt_loan plan index hc.toBorrows hp
  generalize attempt plan script.profile index c p = out at hloan ⊢
  cases hloan with
  | cancelled =>
      exact .of_failed c.id (spanFrom p.bench.clock p.bench) (f := cancelledBefore) rfl 0
  | lacking hm => exact .of_missing c.id _ hm
  | @executed hm b capability hsession hresponses =>
      have hpoint : Program.Point.Orderly script plan.timeouts.test
          ⟨c.execute, Context.start c.id plan.abi plan.timeouts b, b⟩ := by
        refine ⟨⟨_, hsession, rfl, by simp⟩, hresponses, rfl, [], false, hc.execute, ?_, ?_⟩
        · simp [Context.start, Report.Log.start]
        · simp [Context.start, Report.Log.start]
      exact verdict_execute plan _ hpoint.isFinding_run

end Case

/-! ## The whole run -/

section Suite

variable {σ : Type} {script : Script} (o : Outlets σ) (plan : Plan) (n : Naming)
  {cases : List TestCase} {b : Bench} (s : σ)

theorem vacant_midway (hcases : ∀ c ∈ cases, c.Borrows) (hb : Vacant script b) (k : Nat) :
    Vacant script (midway o plan script.profile n cases b s k).bench := by
  apply midway_le_induction o plan script.profile n b s
    (P := fun p => Vacant script p.bench) _ _ (Nat.zero_le k)
  · intro i c hc hp
    exact (vacant_runCase o plan i (hcases c (List.mem_of_getElem? hc)) hp).1
  · rw [midway_zero, Progress.bench_opened]
    exact hb

theorem result_of_vacant (hcases : ∀ c ∈ cases, c.Borrows) (hb : Vacant script b) {i : Nat}
    {c : TestCase} (hc : cases[i]? = some c) :
    (casesRun o plan script.profile n cases b s).1[i]? = some
      (attempt plan script.profile i c (midway o plan script.profile n cases b s i)).1 := by
  rw [result_midway o plan script.profile n b s hc]
  exact congrArg some (vacant_runCase o plan i (hcases c (List.mem_of_getElem? hc))
    (vacant_midway o plan n s hcases hb i)).2

theorem verdict_of_result (hcases : ∀ c ∈ cases, c.Orderly script plan.timeouts.test)
    (hb : Vacant script b) {i : Nat} {r : TestResult}
    (hr : (casesRun o plan script.profile n cases b s).1[i]? = some r) :
    ∃ c, cases[i]? = some c ∧ r.id = c.id ∧ Verdict script.profile c r := by
  have hborrows (c : TestCase) (hc : c ∈ cases) := (hcases c hc).toBorrows
  obtain ⟨c, hc, -, -⟩ := exists_case_of_result o plan script.profile n b s hr
  have hresult := result_of_vacant o plan n s hborrows hb hc
  rw [hr] at hresult
  cases hresult
  refine ⟨c, hc, id_attempt .., ?_⟩
  exact verdict_attempt plan i (hcases c (List.mem_of_getElem? hc))
    (vacant_midway o plan n s hborrows hb i)

theorem exitCode_runSuite (device : Profile) :
    (runSuite o plan device n cases b s).summary.exitCode =
      (runSuite o plan device n cases b s).summary.exit.value := by
  rw [summary_eq_opening]
  exact (Summary.exit_withReport ..).symm

theorem exit_ne_of_results {device : Profile}
    (h : ∀ r ∈ (casesRun o plan device n cases b s).1, r.status ≠ .error) :
    (runSuite o plan device n cases b s).summary.exit.value ≠ 20 := by
  have hnone : ¬ ∃ r ∈ (opening o plan device n cases b s).results, r.status = .error := by
    rintro ⟨r, hr, herror⟩
    exact h r hr herror
  rw [summary_eq_opening, Summary.value_exit_withReport, ExitCode.ofResults, if_neg hnone]
  split
  · decide
  · split
    · decide
    · split <;> decide

end Suite

end Compliance.Run
