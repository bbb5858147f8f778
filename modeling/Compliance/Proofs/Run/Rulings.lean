import Mathlib.Tactic.Common
import Compliance.Proofs.Run.Cancellation

/-!
# The ruling on a case

A case is admitted, prepared, executed and cleaned up, and each of these may end
in more than one way.  The first that does not go on decides what becomes of the
case; a cleanup that breaks down spoils a pass or a skip and nothing else.
-/

namespace Compliance.Run

open Compliance.Check (Bench Context Failure FailureCause Outcome Panic SkipReason TestCase)
open Compliance.Device (Profile)

/-! ## What is kept of a detail -/

/-- The code points that XML 1.0 admits in a text. -/
def IsXml (c : Char) : Prop :=
  c.toNat = 0x9 ∨ c.toNat = 0xA ∨ c.toNat = 0xD ∨
    0x20 ≤ c.toNat ∧ c.toNat ≤ 0xD7FF ∨
    0xE000 ≤ c.toNat ∧ c.toNat ≤ 0xFFFD ∨
    0x10000 ≤ c.toNat ∧ c.toNat ≤ 0x10FFFF

instance : DecidablePred IsXml := fun _ => inferInstanceAs (Decidable (_ ∨ _))

/-- The surrogates, which lie between the ranges, are no characters. -/
theorem isXmlChar_iff (c : Char) : isXmlChar c = true ↔ IsXml c := by
  have hvalid : c.toNat < 0xD800 ∨ 0xDFFF < c.toNat ∧ c.toNat < 0x110000 := c.valid
  have hone (d : Char) : c = d ↔ c.toNat = d.toNat := Char.toNat_inj.symm
  have hle (a b : Char) : a ≤ b ↔ a.toNat ≤ b.toNat := Char.le_def.trans UInt32.le_iff_toNat_le
  simp only [isXmlChar, IsXml, Bool.or_eq_true, Bool.and_eq_true, beq_iff_eq, decide_eq_true_eq,
    hone, hle]
  simp only [Char.reduceToNat]
  omega

/-- What is kept of a text: its characters that XML admits, if there are any. -/
def KeptAs (text detail : Option String) : Prop :=
  (detail.getD "").toList = (text.getD "").toList.filter (fun c => decide (IsXml c)) ∧
    detail ≠ some ""

theorem keptAs_keptDetail (text : Option String) :
    KeptAs text (TestResult.keptDetail text) := by
  have hxml : isXmlChar = fun c => decide (IsXml c) := by
    funext c
    rw [Bool.eq_iff_iff, isXmlChar_iff, decide_eq_true_iff]
  cases text with
  | none => exact ⟨rfl, nofun⟩
  | some text =>
      have hlist : (sanitize text).toList = text.toList.filter fun c => decide (IsXml c) := by
        rw [sanitize, String.toList_ofList, hxml]
      rw [KeptAs, TestResult.keptDetail, Option.map_some, Option.getD_some, ← hlist]
      by_cases hempty : sanitize text = ""
      · simp [Option.filter, hempty]
      · simp [Option.filter, hempty]

/-! ## The stages of a turn -/

/-- The causes that lie in the check and not in the device. -/
def faults : List FailureCause :=
  [.duplicateMetric, .invalidMetric, .panicked]

theorem isError_iff {cause : FailureCause} : cause.isError = true ↔ cause ∈ faults := by
  cases cause <;> simp [faults, FailureCause.isError]

namespace Turn

variable (plan : Plan) (device : Profile) (t : Turn)

/-- Nothing keeps the case from its preparation. -/
structure Admitted : Prop where
  clear : t.start.token.isCancelled = false
  offered : device.missing t.testCase.requires = []

/-- Nothing keeps the case from its execution. -/
structure Ready : Prop where
  admitted : t.Admitted device
  prepared : (t.testCase.prepare.run t.start).1 = .returned ()

/-- The execution ended before its deadline. -/
def InTime : Prop :=
  (t.entry plan).finish.bench.clock < (t.entry plan).bench.clock + plan.timeouts.test

/-- What the cleanup broke down with. -/
def breakdown : Option Panic :=
  (t.testCase.cleanup.run (t.phases.dropLast.foldl (benchAfter plan t.testCase) t.start)).1

/-- All that comes before the cleanup went well. -/
def Passes : Prop :=
  t.Ready device ∧ (∃ o, (t.entry plan).finish.ending = .returned o) ∧ t.InTime plan

/-- The device lacks something, or preparation found a reason to skip. -/
def Skips : Prop :=
  t.start.token.isCancelled = false ∧ (device.missing t.testCase.requires ≠ [] ∨
    ∃ reason, (t.testCase.prepare.run t.start).1 = .stopped reason)

/-- The test code broke down before the cleanup, or execution blames the check. -/
def Errs : Prop :=
  t.Admitted device ∧ (∃ q, (t.testCase.prepare.run t.start).1 = .panicked q) ∨
    t.Ready device ∧ ((∃ q, (t.entry plan).finish.ending = .panicked q) ∨
      ∃ f, (t.entry plan).finish.ending = .stopped f ∧ f.cause ∈ faults)

/-- A success that came too late. -/
def Late : Prop :=
  t.Ready device ∧ (∃ o, (t.entry plan).finish.ending = .returned o) ∧ ¬ t.InTime plan

/-- What is left: the suite was cancelled, or execution blames the device or came
too late. -/
def Fails : Prop :=
  t.start.token.isCancelled = true ∨ t.Late plan device ∨
    t.Ready device ∧ ∃ f, (t.entry plan).finish.ending = .stopped f ∧ f.cause ∉ faults

/-- Status, cause and text for a turn whose cleanup breaks down in some way or not
at all. -/
inductive Ruling (panic? : Option Panic) :
    Status → Option FailureCause → Option String → Prop where
  | cancelled (h : t.start.token.isCancelled = true) :
      Ruling panic? .fail (some .cancelled) (some "suite cancelled before test started")
  | lacking (h : t.start.token.isCancelled = false)
      (hm : device.missing t.testCase.requires ≠ []) (hb : panic? = none) :
      Ruling panic? .skipped none
        (some (SkipReason.missing (device.missing t.testCase.requires)).message)
  | refused (h : t.Admitted device) {reason : SkipReason}
      (hp : (t.testCase.prepare.run t.start).1 = .stopped reason) (hb : panic? = none) :
      Ruling panic? .skipped none (some reason.message)
  | unprepared (h : t.Admitted device) {q : Panic}
      (hp : (t.testCase.prepare.run t.start).1 = .panicked q) :
      Ruling panic? .error (some .panicked) (some ("prepare panicked: " ++ q.message))
  | brokenDown (h : t.Ready device) {q : Panic}
      (he : (t.entry plan).finish.ending = .panicked q) :
      Ruling panic? .error (some .panicked) (some q.message)
  | erred (h : t.Ready device) {f : Failure}
      (he : (t.entry plan).finish.ending = .stopped f) (hf : f.cause ∈ faults) :
      Ruling panic? .error (some f.cause) (some f.detail)
  | failed (h : t.Ready device) {f : Failure}
      (he : (t.entry plan).finish.ending = .stopped f) (hf : f.cause ∉ faults) :
      Ruling panic? .fail (some f.cause) (some f.detail)
  | late (h : t.Ready device) {o : Outcome}
      (he : (t.entry plan).finish.ending = .returned o) (hlate : ¬ t.InTime plan) :
      Ruling panic? .fail (some .timedOut) (some ("result arrived after the " ++
        Number.decimal plan.timeouts.test ++ " ms deadline"))
  | passed (h : t.Ready device) {o : Outcome}
      (he : (t.entry plan).finish.ending = .returned o) (hin : t.InTime plan)
      (hb : panic? = none) : Ruling panic? .pass none o.detail
  | spoiled (h : t.Passes plan device ∨ t.Skips device) {q : Panic} (hb : panic? = some q) :
      Ruling panic? .error (some .panicked) (some ("cleanup panicked: " ++ q.message))

/-- A result says what was ruled, and of the text what XML admits. -/
def RuledBy (panic? : Option Panic) (r : TestResult) : Prop :=
  ∃ text, t.Ruling plan device panic? r.status r.cause text ∧
    r.detail = TestResult.keptDetail text

/-! ## The four statuses -/

variable {plan device t}

theorem ready_iff : t.Ready device ↔ t.start.token.isCancelled = false ∧
    device.missing t.testCase.requires = [] ∧
    (t.testCase.prepare.run t.start).1 = .returned () :=
  ⟨fun h => ⟨h.admitted.clear, h.admitted.offered, h.prepared⟩,
    fun ⟨hclear, hoffered, hprepared⟩ => ⟨⟨hclear, hoffered⟩, hprepared⟩⟩

theorem admitted_iff : t.Admitted device ↔ t.start.token.isCancelled = false ∧
    device.missing t.testCase.requires = [] :=
  ⟨fun h => ⟨h.clear, h.offered⟩, fun ⟨hclear, hoffered⟩ => ⟨hclear, hoffered⟩⟩

/-- Before its cleanup a turn amounts to one status. -/
structure Amounts (plan : Plan) (device : Profile) (t : Turn) (s : Status) : Prop where
  passes : t.Passes plan device ↔ s = .pass
  skips : t.Skips device ↔ s = .skipped
  errs : t.Errs plan device ↔ s = .error
  fails : t.Fails plan device ↔ s = .fail

/-- The cases are those in which one stage after the other goes on. -/
theorem exists_amounts (plan : Plan) (device : Profile) (t : Turn) :
    ∃ s, t.Amounts plan device s := by
  have hwhole {s : Status}
      (h : (t.Passes plan device ↔ s = .pass) ∧ (t.Skips device ↔ s = .skipped) ∧
        (t.Errs plan device ↔ s = .error) ∧ (t.Fails plan device ↔ s = .fail)) :
      ∃ s, t.Amounts plan device s := ⟨s, h.1, h.2.1, h.2.2.1, h.2.2.2⟩
  simp only [Passes, Skips, Errs, Fails, Late, ready_iff, admitted_iff] at hwhole
  cases htoken : t.start.token.isCancelled with
  | true => exact hwhole (s := .fail) (by simp [htoken])
  | false =>
      by_cases hoffered : device.missing t.testCase.requires = []
      case neg => exact hwhole (s := .skipped) (by simp [htoken, hoffered])
      cases hprepared : (t.testCase.prepare.run t.start).1 with
      | stopped reason =>
          exact hwhole (s := .skipped) (by simp [htoken, hoffered, hprepared])
      | panicked q => exact hwhole (s := .error) (by simp [htoken, hoffered, hprepared])
      | returned _ =>
          cases hending : (t.entry plan).finish.ending with
          | panicked q =>
              exact hwhole (s := .error) (by simp [htoken, hoffered, hprepared, hending])
          | stopped f =>
              by_cases hfault : f.cause ∈ faults
              · exact hwhole (s := .error)
                  (by simp [htoken, hoffered, hprepared, hending, hfault])
              · exact hwhole (s := .fail)
                  (by simp [htoken, hoffered, hprepared, hending, hfault])
          | returned o =>
              by_cases hin : t.InTime plan
              · exact hwhole (s := .pass)
                  (by simp [htoken, hoffered, hprepared, hending, hin])
              · exact hwhole (s := .fail)
                  (by simp [htoken, hoffered, hprepared, hending, hin])

namespace Ruling

variable {panic? : Option Panic} {s status : Status} {cause : Option FailureCause}
  {text : Option String}

/-- A panic of the cleanup makes an error of what is no failure. -/
theorem status_eq (h : t.Ruling plan device panic? status cause text)
    (hs : t.Amounts plan device s) :
    status = if panic? = none ∨ s.isFailure = true then s else .error := by
  cases h with
  | cancelled h =>
      rw [hs.fails.1 (Or.inl h)]
      simp [Status.isFailure]
  | lacking h hm hb => rw [hs.skips.1 ⟨h, Or.inl hm⟩, if_pos (Or.inl hb)]
  | refused h hp hb => rw [hs.skips.1 ⟨h.clear, Or.inr ⟨_, hp⟩⟩, if_pos (Or.inl hb)]
  | unprepared h hp =>
      rw [hs.errs.1 (Or.inl ⟨h, _, hp⟩)]
      exact (ite_self _).symm
  | brokenDown h he =>
      rw [hs.errs.1 (Or.inr ⟨h, Or.inl ⟨_, he⟩⟩)]
      exact (ite_self _).symm
  | erred h he hf =>
      rw [hs.errs.1 (Or.inr ⟨h, Or.inr ⟨_, he, hf⟩⟩)]
      exact (ite_self _).symm
  | failed h he hf =>
      rw [hs.fails.1 (Or.inr (Or.inr ⟨h, _, he, hf⟩))]
      simp [Status.isFailure]
  | late h he hlate =>
      rw [hs.fails.1 (Or.inr (Or.inl ⟨h, ⟨_, he⟩, hlate⟩))]
      simp [Status.isFailure]
  | passed h he hin hb => rw [hs.passes.1 ⟨h, ⟨_, he⟩, hin⟩, if_pos (Or.inl hb)]
  | spoiled h hb =>
      subst hb
      rcases h with h | h
      · rw [hs.passes.1 h]
        rfl
      · rw [hs.skips.1 h]
        rfl

theorem isSome_cause (h : t.Ruling plan device panic? status cause text) :
    cause.isSome = true ↔ status = .fail ∨ status = .error := by
  cases h <;> simp

theorem timedOut_of_late (h : t.Ruling plan device panic? status cause text)
    (hlate : t.Late plan device) : status = .fail ∧ cause = some .timedOut := by
  obtain ⟨hready, ⟨o, he⟩, hnot⟩ := hlate
  obtain ⟨htoken, hoffered, hprepared⟩ := ready_iff.1 hready
  have hpasses : ¬ t.Passes plan device := fun h => hnot h.2.2
  have hskips : ¬ t.Skips device := by simp [Skips, hoffered, hprepared]
  cases h with
  | late => exact ⟨rfl, rfl⟩
  | cancelled h => rw [htoken] at h; cases h
  | lacking _ hm => exact absurd hoffered hm
  | refused _ hp | unprepared _ hp => rw [hprepared] at hp; cases hp
  | brokenDown _ h | erred _ h | failed _ h => rw [he] at h; cases h
  | passed _ _ hin => exact absurd hin hnot
  | spoiled h => exact (h.elim hpasses hskips).elim

/-- Without a panic of the cleanup a turn has failed, whatever its cleanup does,
or there is something to spoil. -/
theorem failed_or_spoilable (h : t.Ruling plan device none status cause text) :
    (status.isFailure = true ∧ ∀ panic?, t.Ruling plan device panic? status cause text) ∨
      status.isFailure = false ∧ (t.Passes plan device ∨ t.Skips device) := by
  cases h with
  | cancelled h => exact Or.inl ⟨rfl, fun _ => .cancelled h⟩
  | lacking h hm => exact Or.inr ⟨rfl, Or.inr ⟨h, Or.inl hm⟩⟩
  | refused h hp => exact Or.inr ⟨rfl, Or.inr ⟨h.clear, Or.inr ⟨_, hp⟩⟩⟩
  | unprepared h hp => exact Or.inl ⟨rfl, fun _ => .unprepared h hp⟩
  | brokenDown h he => exact Or.inl ⟨rfl, fun _ => .brokenDown h he⟩
  | erred h he hf => exact Or.inl ⟨rfl, fun _ => .erred h he hf⟩
  | failed h he hf => exact Or.inl ⟨rfl, fun _ => .failed h he hf⟩
  | late h he hlate => exact Or.inl ⟨rfl, fun _ => .late h he hlate⟩
  | passed h he hin => exact Or.inr ⟨rfl, Or.inl ⟨h, ⟨_, he⟩, hin⟩⟩
  | spoiled _ hb => cases hb

end Ruling

/-! ## What results say -/

section Results

variable {panic? : Option Panic} (id : Report.TestId) (span : Span)

theorem RuledBy.withMetrics {r : TestResult} (h : t.RuledBy plan device panic? r) (n : Nat) :
    t.RuledBy plan device panic? (r.withMetrics n) :=
  h

theorem ruledBy_passed {o : Outcome}
    (h : t.Ruling plan device panic? .pass none o.detail) :
    t.RuledBy plan device panic? (.passed id span o) := by
  refine ⟨o.detail, h, ?_⟩
  simp only [TestResult.passed]

theorem ruledBy_skipped {reason : SkipReason}
    (h : t.Ruling plan device panic? .skipped none (some reason.message)) :
    t.RuledBy plan device panic? (.skipped id span reason) := by
  refine ⟨some reason.message, h, ?_⟩
  simp only [TestResult.skipped]

theorem ruledBy_failed (f : Failure)
    (h : t.Ruling plan device panic? (if f.cause ∈ faults then .error else .fail) (some f.cause)
      (some f.detail)) :
    t.RuledBy plan device panic? (.failed id span f) := by
  simp only [← isError_iff] at h
  refine ⟨some f.detail, h, ?_⟩
  simp only [TestResult.failed]

end Results

theorem RuledBy.afterCleanup {r : TestResult} (h : t.RuledBy plan device none r)
    (start : Nat) (b : Bench) (panic? : Option Panic) :
    t.RuledBy plan device panic? (Run.afterCleanup t.testCase start b r panic?) := by
  obtain ⟨text, hruling, hdetail⟩ := h
  rcases hruling.failed_or_spoilable with ⟨hstatus, hall⟩ | ⟨hstatus, hstage⟩
  · rw [afterCleanup_of_isFailure _ _ _ hstatus]
    exact ⟨text, hall panic?, hdetail⟩
  · cases panic? with
    | none => exact ⟨text, hruling, hdetail⟩
    | some q =>
        simp only [Run.afterCleanup, hstatus, Bool.false_eq_true, ↓reduceIte]
        exact (ruledBy_failed _ _ (panicked _) (.spoiled hstage rfl)).withMetrics _

end Turn

section Case

variable (plan : Plan) (device : Profile) (index : Nat) (c : TestCase)

theorem ruledBy_execute {σ : Type} {t : Turn} (h : t.Ready device) (start : Nat)
    {p : Progress σ} (hp : p.bench = (t.entry plan).bench) :
    t.RuledBy plan device none (execute plan t.testCase start p).1 ∧
      (execute plan t.testCase start p).1.metrics = (t.entry plan).finish.log.size := by
  have hrun : t.testCase.execute.run
      (Context.start t.testCase.id plan.abi plan.timeouts p.bench) p.bench =
        (t.entry plan).finish := by
    rw [hp]
    rfl
  have hexpired : (Context.start t.testCase.id plan.abi plan.timeouts p.bench).deadline.isExpired
      (t.entry plan).finish.bench.clock = true ↔ ¬ t.InTime plan := by
    rw [hp, Turn.InTime, Nat.not_lt]
    exact decide_eq_true_iff
  unfold execute
  simp only [hrun]
  refine ⟨Turn.RuledBy.withMetrics ?_ _, rfl⟩
  cases hending : (t.entry plan).finish.ending with
  | panicked q =>
      exact Turn.ruledBy_failed _ _ (panicked q.message) (.brokenDown h hending)
  | stopped f =>
      apply Turn.ruledBy_failed
      split
      · exact .erred h hending ‹_›
      · exact .failed h hending ‹_›
  | returned o =>
      by_cases hin : t.InTime plan
      · rw [Bool.eq_false_iff.2 fun hlate => hexpired.1 hlate hin]
        exact Turn.ruledBy_passed _ _ (.passed h hending hin rfl)
      · rw [hexpired.2 hin]
        exact Turn.ruledBy_failed _ _ (arrivedLate plan.timeouts) (.late h hending hin)

theorem ruledBy_attempt {σ : Type} (p : Progress σ) :
    let t := Turn.mk c p.bench (phasesOn device c p.bench)
    t.RuledBy plan device none (attempt plan device index c p).1 ∧
      (t.Ready device →
        (attempt plan device index c p).1.metrics = (t.entry plan).finish.log.size) ∧
      (¬ t.Ready device → (attempt plan device index c p).1.metrics = 0) := by
  intro t
  have hcourse := attempt_course plan device index c p
  generalize attempt plan device index c p = out at hcourse ⊢
  cases hcourse with
  | cancelled h =>
      refine ⟨Turn.ruledBy_failed _ _ cancelledBefore (.cancelled h), fun hready => ?_,
        fun _ => rfl⟩
      exact absurd (h.symm.trans hready.admitted.clear) Bool.noConfusion
  | lacking h hm =>
      refine ⟨Turn.ruledBy_skipped _ _ (.lacking h hm rfl), fun hready => ?_, fun _ => rfl⟩
      exact absurd hready.admitted.offered hm
  | refused h hm reason b hp =>
      have hstopped : (c.prepare.run p.bench).1 = .stopped reason := by rw [hp]
      refine ⟨Turn.ruledBy_skipped _ _ (.refused ⟨h, hm⟩ hstopped rfl), fun hready => ?_,
        fun _ => rfl⟩
      cases hstopped.symm.trans hready.prepared
  | brokenDown h hm q b hp =>
      have hpanicked : (c.prepare.run p.bench).1 = .panicked q := by rw [hp]
      refine ⟨Turn.ruledBy_failed _ _ (panicked _) (.unprepared ⟨h, hm⟩ hpanicked),
        fun hready => ?_, fun _ => rfl⟩
      cases hpanicked.symm.trans hready.prepared
  | executed h hm b hp =>
      have hready : t.Ready device := ⟨⟨h, hm⟩, congrArg Prod.fst hp⟩
      have hbench : (t.entry plan).bench = b := congrArg Prod.snd hp
      obtain ⟨hruled, hmetrics⟩ := ruledBy_execute plan device hready p.bench.clock
        (p := ((p.enter index c .prepare).setBench b).enter index c .execute) hbench.symm
      exact ⟨hruled, fun _ => hmetrics, fun hnot => absurd hready hnot⟩

/-- What a result says of a turn. -/
structure Judged (t : Turn) (r : TestResult) : Prop where
  id : r.id = t.testCase.id
  pass : r.status = .pass ↔ t.Passes plan device ∧ t.breakdown plan = none
  skipped : r.status = .skipped ↔ t.Skips device ∧ t.breakdown plan = none
  error : r.status = .error ↔ t.Errs plan device ∨
    (t.Passes plan device ∨ t.Skips device) ∧ t.breakdown plan ≠ none
  fail : r.status = .fail ↔ t.Fails plan device
  late : t.Late plan device → r.status = .fail ∧ r.cause = some .timedOut
  cause : r.cause.isSome = true ↔ r.status = .fail ∨ r.status = .error
  told : ∃ text, t.Ruling plan device (t.breakdown plan) r.status r.cause text ∧
    KeptAs text r.detail
  metrics : (t.Ready device → r.metrics = (t.entry plan).finish.log.size) ∧
    (¬ t.Ready device → r.metrics = 0)

/-- A cleanup may spoil the result there is without it, but hides no failure and
drops no metric. -/
structure Spoils (quiet r : TestResult) : Prop where
  status : quiet.status.severity ≤ r.status.severity
  failure : quiet.status.isFailure = true → r = quiet
  metrics : r.metrics = quiet.metrics

theorem spoils_afterCleanup (start : Nat) (b : Bench) (quiet : TestResult)
    (panic? : Option Panic) : Spoils quiet (afterCleanup c start b quiet panic?) := by
  refine ⟨?_, fun h => afterCleanup_of_isFailure c start b h panic?,
    metrics_afterCleanup c start b quiet panic?⟩
  cases hstatus : quiet.status.isFailure with
  | true => rw [afterCleanup_of_isFailure c start b hstatus]
  | false =>
      cases panic? with
      | none => exact Nat.le_refl _
      | some q =>
          simp only [afterCleanup, hstatus, Bool.false_eq_true, ↓reduceIte]
          change quiet.status.severity ≤ Status.error.severity
          cases quiet.status <;> decide

theorem judged_of_ruledBy {plan : Plan} {device : Profile} {t : Turn} {r : TestResult}
    (hruled : t.RuledBy plan device (t.breakdown plan) r) (hid : r.id = t.testCase.id)
    (hmetrics : (t.Ready device → r.metrics = (t.entry plan).finish.log.size) ∧
      (¬ t.Ready device → r.metrics = 0)) : Judged plan device t r := by
  obtain ⟨text, hruling, hdetail⟩ := hruled
  obtain ⟨s, hs⟩ := t.exists_amounts plan device
  have hstatus := hruling.status_eq hs
  constructor
  case id => exact hid
  case pass =>
    rw [hstatus, hs.passes]
    cases t.breakdown plan <;> cases s <;> simp [Status.isFailure]
  case skipped =>
    rw [hstatus, hs.skips]
    cases t.breakdown plan <;> cases s <;> simp [Status.isFailure]
  case error =>
    rw [hstatus, hs.errs, hs.passes, hs.skips]
    cases t.breakdown plan <;> cases s <;> simp [Status.isFailure]
  case fail =>
    rw [hstatus, hs.fails]
    cases t.breakdown plan <;> cases s <;> simp [Status.isFailure]
  case late => exact hruling.timedOut_of_late
  case cause => exact hruling.isSome_cause
  case told => exact ⟨text, hruling, hdetail ▸ keptAs_keptDetail text⟩
  case metrics => exact hmetrics

variable {σ : Type} (o : Outlets σ) (p : Progress σ)

theorem judged_runCase :
    Judged plan device (turnOf device c p.bench) (runCase o plan device index c p).1 := by
  let t := turnOf device c p.bench
  obtain ⟨hruled, hready, hnot⟩ := ruledBy_attempt plan device index c
    (p.setBench { p.bench with session := none })
  obtain ⟨phases, hphases, -, hbench, -⟩ := attempt_calls plan device index c
    (p.setBench { p.bench with session := none })
  have hbreakdown : t.breakdown plan = (c.cleanup.run (attempt plan device index c
      (p.setBench { p.bench with session := none })).2.bench).1 := by
    have hlast : t.phases.dropLast = phases := by
      rw [show t.phases = phases ++ [.cleanup] from hphases, List.dropLast_concat]
    rw [Turn.breakdown, hlast, hbench]
    rfl
  apply judged_of_ruledBy
  · rw [hbreakdown]
    exact hruled.afterCleanup _ _ _
  · exact (runCase_turn o plan device index c p).1
  · have hmetrics : (runCase o plan device index c p).1.metrics = (attempt plan device index c
        (p.setBench { p.bench with session := none })).1.metrics :=
      metrics_afterCleanup c _ _ _ _
    rw [hmetrics]
    exact ⟨hready, hnot⟩

/-- The same case with nothing to clean up. -/
def withoutCleanup : TestCase :=
  { c with cleanup := .done }

theorem spoils_runCase : Spoils (runCase o plan device index (withoutCleanup c) p).1
    (runCase o plan device index c p).1 := by
  have hattempt : attempt plan device index (withoutCleanup c)
      (p.setBench { p.bench with session := none }) =
        attempt plan device index c (p.setBench { p.bench with session := none }) := rfl
  have hquiet : (runCase o plan device index (withoutCleanup c) p).1 =
      (attempt plan device index c (p.setBench { p.bench with session := none })).1 := by
    simp only [runCase, hattempt]
    rfl
  rw [hquiet]
  exact spoils_afterCleanup c _ _ _ _

end Case

/-- Each case of a run is judged by its turn, and against the same run in which it
has nothing to clean up. -/
theorem runSuite_judged {σ : Type} (o : Outlets σ) (plan : Plan) (device : Profile) (n : Naming)
    (before : List TestCase) (c : TestCase) (after : List TestCase) (b : Bench) (s : σ) :
    ∃ t r quiet, (turns plan device (before ++ c :: after) b)[before.length]? = some t ∧
      t.testCase = c ∧
      (runSuite o plan device n (before ++ c :: after) b s).summary.results[before.length]? =
        some r ∧
      (runSuite o plan device n (before ++ withoutCleanup c :: after) b
        s).summary.results[before.length]? = some quiet ∧
      Judged plan device t r ∧ Spoils quiet r := by
  have hmem (d : TestCase) : (before ++ d :: after)[before.length]? = some d := by simp
  have hsame : midway o plan device n (before ++ withoutCleanup c :: after) b s before.length =
      midway o plan device n (before ++ c :: after) b s before.length := by
    simp [midway]
  refine ⟨_, _, _, turn_midway o plan device n b s (hmem c), rfl,
    result_midway o plan device n b s (hmem c),
    result_midway o plan device n b s (hmem (withoutCleanup c)),
    judged_runCase plan device _ c o _, ?_⟩
  rw [hsame]
  exact spoils_runCase plan device _ c o _

end Compliance.Run
