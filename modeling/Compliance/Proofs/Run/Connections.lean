import Compliance.Proofs.Check.Linking
import Compliance.Proofs.Run.Isolation
import Compliance.Proofs.Run.Midway

/-!
# Link checks in a run

Among the checks of the registry that one device serves, a link check finds the
device free.  What comes of it is decided by its parameters, by the time it has,
and by the first event with which the script answers its request.
-/

namespace Compliance.Report

/-- What a log tells: the headline and the details. -/
def Log.content (log : Log) : Option Metric × List (String × Metric) :=
  (log.headline, log.details)

end Compliance.Report

namespace Compliance.Device

theorem Script.mem_events_of_firstReply? {s : Script} {address : String} {e : ScheduledEvent}
    (h : e ∈ s.firstReply? address) : e.event ∈ s.events := by
  obtain ⟨response, hresponse, hmem⟩ := List.mem_flatMap.1 (List.argmin_mem h)
  exact List.mem_flatMap.2 ⟨response, (List.mem_filter.1 hresponse).1, List.mem_map_of_mem hmem⟩

end Compliance.Device

namespace Compliance.Check

open Compliance.Device (Event Script)
open Compliance.Report (Log Metric TestId)

/-- The event is a link that came up. -/
def IsLink (e : Event) : Prop :=
  ∃ address encrypted mtu, e = .connected address encrypted mtu

/-- The number of metrics in the log. -/
def Tally.size (t : Tally) : Nat :=
  t.details.length + t.headline.toList.length

/-- What is filed: the content of the log, unless it is empty. -/
def Tally.filed (t : Tally) : Option (Option Metric × List (String × Metric)) :=
  if t.size = 0 then none else some (t.headline, t.details)

@[simp] theorem Bench.requests_release (b : Bench) :
    b.release.platform.requests = b.platform.requests := by
  unfold release
  split
  · rfl
  · unfold Device.Session.close
    split <;> rfl

/-- On a device that lacks nothing, with nobody on it, the session is taken. -/
theorem Link.run_prepare (l : Link) (id : TestId) (extra : Device.CapabilitySet)
    {script : Script} {b : Bench} (hb : b.Serves script .fresh) (hs : b.session = none)
    (hoffered : script.profile.missing (l.toCase id extra).requires = []) :
    ∃ held, (l.toCase id extra).prepare.run b = (.returned (), { b with
      platform := { b.platform with held := held }
      session := some ⟨channel l.secure, [], true⟩ }) := by
  obtain ⟨havailable, hfree⟩ := hb.free_of_required hs hoffered (l.channel_mem_requires id extra)
  have hacquire := Device.Platform.acquire_eq_ok.2 ⟨havailable, hfree, rfl, rfl⟩
  refine ⟨b.platform.held.insert (channel l.secure), ?_⟩
  simp [toCase, Preparation.run, Bench.acquire, hacquire, Bench.release, hs]

end Compliance.Check

namespace Compliance.Suite

open Compliance.Check (Link LinkParams)

/-- Each check of a suite is that of its entry. -/
theorem exists_entry_of_casesBehind {seen : List Report.TestId} {entries : List Entry}
    {cases : List Check.TestCase} (h : casesBehind seen entries = .ok cases) {i : Nat}
    {c : Check.TestCase} (hc : cases[i]? = some c) :
    ∃ e, entries[i]? = some e ∧ e.toCase = .ok c := by
  induction entries generalizing seen cases i with
  | nil =>
      cases h
      cases hc
  | cons e rest ih =>
      obtain ⟨-, first, later, hfirst, hlater, rfl⟩ := casesBehind_cons_eq_ok h
      cases i with
      | zero =>
          cases hc
          exact ⟨e, rfl, hfirst⟩
      | succ i => exact ih hlater hc

/-- A link check of the registry has parameters that make a link. -/
theorem Entry.exists_link {e : Entry} (hkind : e.kind = .connect) {c : Check.TestCase}
    (h : e.toCase = .ok c) : ∃ params l, LinkParams.ofJson? e.givenParams = some params ∧
      Link.ofParams params = .ok l ∧ c = l.toCase e.id e.requires := by
  rcases Entry.toCase_cases h with ⟨-, -, hother, -⟩ | ⟨params, l, -, hlink⟩
  · exact absurd (hkind.symm.trans hother) (by decide)
  · exact ⟨params, l, hlink⟩

end Compliance.Suite

namespace Compliance.Run

open Compliance.Check (Bench Context IsLink Link LinkParams Tally TestCase)
open Compliance.Device (Profile ScheduledEvent Script)
open Compliance.Report (Log Metric Outbox TestId)

/-- The result of a check that came to a tally. -/
def resultOf (plan : Plan) (id : TestId) (t : Tally) (span : Span) : TestResult :=
  (match verdict plan.timeouts (plan.timeouts.test ≤ span.durationMs) t.ending with
    | .ok o => TestResult.passed id span o
    | .error f => TestResult.failed id span f).withMetrics t.size

theorem undated_resultOf (plan : Plan) (id : TestId) (t : Tally) {span span' : Span}
    (h : span'.durationMs = span.durationMs) :
    (resultOf plan id t span').undated = (resultOf plan id t span).undated := by
  unfold resultOf
  rw [h]
  apply undated_withMetrics
  split
  · exact undated_passed id _ h
  · exact undated_failed id _ h

theorem id_resultOf (plan : Plan) (id : TestId) (t : Tally) (span : Span) :
    (resultOf plan id t span).id = id := by
  unfold resultOf
  split <;> rfl

/-- A case that is prepared is executed. -/
theorem attempt_of_ready {σ : Type} (plan : Plan) {device : Profile} (index : Nat)
    {c : TestCase} {p : Progress σ} {b : Bench} (htoken : p.bench.token.isCancelled = false)
    (hoffered : device.missing c.requires = [])
    (hprepare : c.prepare.run p.bench = (.returned (), b)) :
    attempt plan device index c p = execute plan c p.bench.clock
      (((p.enter index c .prepare).setBench b).enter index c .execute) := by
  simp [attempt, htoken, hoffered, hprepare]

theorem fileLog_of_content (outbox : Outbox) {log : Log} {t : Tally}
    (h : log.content = (t.headline, t.details)) (hnone : outbox.log? log.key = none) :
    ((fileLog outbox log).log? log.key).map Log.content = t.filed := by
  have hsize : log.size = t.size := by
    simp only [Log.content, Prod.mk.injEq] at h
    rw [Log.size, Tally.size, h.1, h.2]
  rw [fileLog_eq, Outbox.log?_file_self hnone (by split <;> simp), Log.isEmpty, hsize, Tally.filed]
  by_cases hempty : t.size = 0
  · simp [hempty]
  · simp [hempty, h]

section Link

variable {σ : Type} (plan : Plan) {script : Script} {l : Link} (id : TestId)
  (extra : Device.CapabilitySet) {p : Progress σ} {first? : Option ScheduledEvent} {t : Tally}
  (hpos : 0 < plan.timeouts.test) (hfirst : script.firstReply? l.address = first?)
  (hyields : (l.rest plan.timeouts first?).1.Yields t)

include hpos hfirst hyields

/-- The check is executed on the session that its preparation took. -/
theorem execute_link (hs : p.bench.session = some ⟨Link.channel l.secure, [], true⟩)
    (htoken : p.bench.token.isCancelled = false)
    (hresponses : p.bench.platform.responses = script.responses) :
    let out := execute plan (l.toCase id extra) p.bench.clock p
    let ms := (l.rest plan.timeouts first?).2
    out.1 = resultOf plan id t ⟨p.now, ms⟩ ∧
      (∃ log : Log, log.key = id.key plan.abi ∧ log.content = (t.headline, t.details) ∧
        out.2.outbox = fileLog p.outbox log) ∧
      ∃ s, out.2.bench = l.waited p.bench s ms := by
  intro out ms
  let context := Context.start id plan.abi plan.timeouts p.bench
  obtain ⟨s, hrun⟩ := l.run_program (c := context) hs htoken rfl hpos hresponses
  rw [hfirst] at hrun
  have hfinish := hrun.trans (hyields context (l.waited p.bench s ms) rfl rfl)
  have hexpired : context.deadline.isExpired (l.waited p.bench s ms).clock =
      decide (plan.timeouts.test ≤ ms) := by
    simp [Check.Deadline.isExpired, Check.Deadline.time, context, Context.start, Link.waited]
  have hspan : spanFrom p.bench.clock (l.waited p.bench s ms) = ⟨p.now, ms⟩ := by
    simp [spanFrom, Link.waited, Progress.now, Bench.now]
  simp only [context] at hfinish hexpired
  simp only [out, execute, Link.toCase, hfinish, hexpired, hspan]
  exact ⟨rfl, ⟨_, rfl, rfl, rfl⟩, s, rfl⟩

/-- A link check that finds the device free sends its request, and nothing but its
first reply decides what comes of it. -/
theorem runCase_link (o : Outlets σ) (index : Nat) (hp : p.bench.Serves script .fresh)
    (hs : p.bench.session = none)
    (hoffered : script.profile.missing (l.toCase id extra).requires = []) :
    let out := runCase o plan script.profile index (l.toCase id extra) p
    out.1 = resultOf plan id t ⟨p.now, (l.rest plan.timeouts first?).2⟩ ∧
      (p.outbox.log? (id.key plan.abi) = none →
        (out.2.outbox.log? (id.key plan.abi)).map Log.content = t.filed) ∧
      out.2.bench.platform.requests =
        p.bench.platform.requests ++ [.connect l.address l.secure] := by
  intro out
  have hstart : p.setBench { p.bench with session := none } = p := by
    rw [← hs]
    rfl
  obtain ⟨held, hprepare⟩ := l.run_prepare id extra hp hs hoffered
  have htoken : p.bench.token.isCancelled = false := by
    rw [hp.token]
    rfl
  -- The progress at the start of the execution.
  let q := ((p.enter index (l.toCase id extra) .prepare).setBench { p.bench with
    platform := { p.bench.platform with held := held }
    session := some ⟨Link.channel l.secure, [], true⟩ }).enter index (l.toCase id extra) .execute
  have hattempt : attempt plan script.profile index (l.toCase id extra) p =
      execute plan (l.toCase id extra) q.bench.clock q :=
    attempt_of_ready plan index htoken hoffered hprepare
  obtain ⟨hresult, ⟨log, hkey, hcontent, houtbox⟩, s, hbench⟩ :=
    execute_link plan id extra (p := q) hpos hfirst hyields rfl htoken hp.responses
  simp only [out, runCase, hstart, hattempt]
  refine ⟨hresult, ?_, ?_⟩
  · intro hlog
    have hfiled := fileLog_of_content p.outbox hcontent (hkey ▸ hlog)
    rw [hkey] at hfiled
    change (Option.map Log.content
      ((execute plan (l.toCase id extra) q.bench.clock q).2.outbox.log? _)) = _
    rw [houtbox]
    exact hfiled
  · change (Bench.release
      (execute plan (l.toCase id extra) q.bench.clock q).2.bench).platform.requests = _
    rw [Check.Bench.requests_release, hbench]
    rfl

end Link

/-- What comes of a link check that has so much time, by its first reply: the status
and the cause of its result, and what is filed of it. -/
structure Connected (params : LinkParams) (limit : Nat) (first? : Option ScheduledEvent)
    (r : TestResult) (filed : Option (Option Metric × List (String × Metric))) : Prop where
  passed : r.status = .pass ↔ ∃ e ∈ first?, e.delay < limit ∧ params.Accepts e.event
  timedOut : r.status = .fail ∧ r.cause = some .timedOut ↔
    (¬ ∃ e ∈ first?, e.delay ≤ limit) ∨ ∃ e ∈ first?, e.delay = limit ∧ params.Accepts e.event
  mismatched : r.status = .fail ∧ r.cause = some .protocolMismatch ↔
    ∃ e ∈ first?, e.delay ≤ limit ∧ IsLink e.event ∧ ¬ params.Accepts e.event
  unexpected : r.status = .fail ∧ r.cause = some .unexpectedResponse ↔
    ∃ e ∈ first?, e.delay ≤ limit ∧ ¬ IsLink e.event
  recorded : ∀ e ∈ first?, e.delay ≤ limit → params.Accepts e.event →
    ∃ address encrypted mtu, e.event = .connected address encrypted mtu ∧
      filed = some (some (Link.latencyMetric e.delay), [("negotiated_mtu", Link.mtuMetric mtu)])
  unrecorded : (¬ ∃ e ∈ first?, e.delay ≤ limit ∧ params.Accepts e.event) → filed = none

theorem resultOf_stopped (plan : Plan) (id : TestId) {f : Check.Failure}
    (hf : f.cause.isError = false) (span : Span) :
    (resultOf plan id ⟨.stopped f, none, []⟩ span).status = .fail ∧
      (resultOf plan id ⟨.stopped f, none, []⟩ span).cause = some f.cause := by
  simp [resultOf, verdict, TestResult.failed, TestResult.withMetrics, hf]

/-- A pass that comes in time stays one, and a late one is a failure. -/
theorem resultOf_returned (plan : Plan) (id : TestId) (t : Tally) {o : Check.Outcome}
    (ho : t.ending = .returned o) (span : Span) :
    (resultOf plan id t span).status =
        (if plan.timeouts.test ≤ span.durationMs then .fail else .pass) ∧
      (resultOf plan id t span).cause =
        if plan.timeouts.test ≤ span.durationMs then some .timedOut else none := by
  by_cases hlate : plan.timeouts.test ≤ span.durationMs
  · simp [resultOf, verdict, TestResult.failed, TestResult.withMetrics, ho, hlate, arrivedLate,
      Check.FailureCause.isError]
  · simp [resultOf, verdict, TestResult.passed, TestResult.withMetrics, ho, hlate]

theorem connected_of_comes {plan : Plan} {params : LinkParams} {l : Link}
    (hl : Link.ofParams params = .ok l) {first? : Option ScheduledEvent} {t : Tally} {ms : Nat}
    (h : l.Comes plan.timeouts.test first? t ms) (id : TestId) (now : Time.Timestamp) :
    Connected params plan.timeouts.test first? (resultOf plan id t ⟨now, ms⟩) t.filed := by
  have haccepts := Link.accepts_iff hl
  have hunfiled (f : Check.Failure) : Tally.filed ⟨.stopped f, none, []⟩ = none := rfl
  cases h with
  | @silent hlate f hf =>
      obtain ⟨hstatus, hcause⟩ := resultOf_stopped plan id (f := f) (by rw [hf]; rfl)
        ⟨now, plan.timeouts.test⟩
      cases first? with
      | none => constructor <;> simp [hstatus, hcause, hf, hunfiled]
      | some e =>
          have hnot : ¬ e.delay ≤ plan.timeouts.test := Nat.not_le.2 (hlate e rfl)
          constructor <;> simp [hstatus, hcause, hf, hunfiled, hnot]
          omega
  | @accepted e he hle address encrypted mtu hevent hmeets o =>
      have hok : params.Accepts e.event := hevent ▸ (haccepts ..).2 hmeets
      obtain ⟨hstatus, hcause⟩ := resultOf_returned plan id ⟨.returned o,
        some (Link.latencyMetric e.delay), [("negotiated_mtu", Link.mtuMetric mtu)]⟩ rfl
        ⟨now, e.delay⟩
      have hlink : IsLink e.event := ⟨_, _, _, hevent⟩
      subst he
      refine ⟨?_, ?_, ?_, ?_, ?_, ?_⟩
      · simp [hstatus, hok]
      · simp only [hstatus, hcause]
        split <;> simp [hok] <;> omega
      · simp only [hstatus, hcause]
        split <;> simp [hok]
      · simp only [hstatus, hcause]
        split <;> simp [hlink]
      · rintro e' he' - -
        cases he'
        exact ⟨_, _, _, hevent, rfl⟩
      · simp [hle, hok]
  | @violating e he hle address encrypted mtu hevent hnot f hf =>
      have hbad : ¬ params.Accepts e.event := hevent ▸ mt (haccepts ..).1 hnot
      have hlink : IsLink e.event := ⟨_, _, _, hevent⟩
      obtain ⟨hstatus, hcause⟩ := resultOf_stopped plan id (f := f) (by rw [hf]; rfl)
        ⟨now, e.delay⟩
      subst he
      constructor <;> simp [hstatus, hcause, hf, hunfiled, hbad, hlink, hle]
  | @unexpected e he hle hevent f hf =>
      have hlink : ¬ IsLink e.event := by
        rintro ⟨address, encrypted, mtu, heq⟩
        exact hevent _ _ _ heq
      have hbad : ¬ params.Accepts e.event := by
        rintro ⟨address, encrypted, mtu, heq, -⟩
        exact hevent _ _ _ heq
      obtain ⟨hstatus, hcause⟩ := resultOf_stopped plan id (f := f) (by rw [hf]; rfl)
        ⟨now, e.delay⟩
      subst he
      constructor <;> simp [hstatus, hcause, hf, hunfiled, hbad, hlink, hle]

section Suite

variable {σ : Type} (o : Outlets σ) (plan : Plan) {script : Script} (n : Naming) (start : Nat)
  (s : σ) {cases : List TestCase} (hgive : ∀ c ∈ cases, c.GivesBack)

include hgive

/-- Every case finds the device free. -/
theorem serves_midway (k : Nat) :
    let b := (midway o plan script.profile n cases (benchAt start script) s k).bench
    b.Serves script .fresh ∧ b.session = none := by
  apply midway_le_induction o plan script.profile n _ s
    (P := fun p => p.bench.Serves script .fresh ∧ p.bench.session = none) _ _ (Nat.zero_le k)
  · intro i c hc hp
    exact runCase_serves plan script.profile o i (hgive c (List.mem_of_getElem? hc)) hp.1 hp.2
  · obtain ⟨hserves, hidle, -⟩ := Progress.ready_opened o n cases.length start script s
    exact ⟨hserves, hidle⟩

variable (hids : (cases.map (·.id)).Nodup) {i : Nat} {l : Link} {id : TestId}
  {extra : Device.CapabilitySet} (hc : cases[i]? = some (l.toCase id extra))
  (hoffered : script.profile.missing (l.toCase id extra).requires = [])
  (hpos : 0 < plan.timeouts.test) {first? : Option ScheduledEvent} {t : Tally}
  (hfirst : script.firstReply? l.address = first?)
  (hyields : (l.rest plan.timeouts first?).1.Yields t)

include hids hc hoffered hpos hfirst hyields

theorem link_runSuite :
    let b := benchAt start script
    let run := runSuite o plan script.profile n cases b s
    (∃ now, run.summary.results[i]? =
      some (resultOf plan id t ⟨now, (l.rest plan.timeouts first?).2⟩)) ∧
    (run.progress.outbox.log? (id.key plan.abi)).map Log.content = t.filed ∧
    (midway o plan script.profile n cases b s (i + 1)).bench.platform.requests =
      (midway o plan script.profile n cases b s i).bench.platform.requests ++
        [.connect l.address l.secure] := by
  intro b run
  obtain ⟨hserves, hidle, hnone⟩ := Progress.ready_opened o n cases.length start script s
  obtain ⟨q, j, hq, hqs, hqlog, hresult, hlog⟩ := runCases_each plan script.profile o 0 hgive hids
    hserves hidle (fun c _ => hnone _) hc
  obtain ⟨hqresult, hfiled, -⟩ := runCase_link plan id extra (p := q) hpos hfirst hyields o j hq hqs
    hoffered
  refine ⟨⟨q.now, ?_⟩, ?_, ?_⟩
  · rw [← hqresult]
    exact hresult
  · rw [log?_runSuite]
    exact (congrArg (Option.map Log.content) hlog).trans (hfiled hqlog)
  · obtain ⟨hmidway, hfree⟩ := serves_midway o plan n start s hgive i
    rw [midway_succ o plan script.profile n b s hc]
    exact (runCase_link plan id extra hpos hfirst hyields o i hmidway hfree hoffered).2.2

end Suite

/-- A link check of the registry, on a device with all it requires, is decided by the
event that answers its request first: it passes when that is a link as it has to be
and comes before the deadline, and fails for the time, for the link or for another
event otherwise.  Latency and transmission unit are recorded of any such link that
comes by the deadline.  The check sends one request, and what else the script has
makes no difference. -/
theorem runSuite_connected {σ : Type} (o : Outlets σ) (plan : Plan) {script : Script}
    {form : Json.Form} {v : Json} (hscript : Script.ofJson? form v = some script) (n : Naming)
    (start : Nat) (s : σ) {entries : List Suite.Entry} {cases : List TestCase}
    (hcases : Suite.casesOf entries = .ok cases) (hplan : plan.timeouts.validate = .ok ())
    {i : Nat} {entry : Suite.Entry} {c : TestCase} (hentry : entries[i]? = some entry)
    (hkind : entry.kind = .connect) (hc : cases[i]? = some c)
    (hoffered : script.profile.missing c.requires = []) :
    let b := benchAt start script
    let run := runSuite o plan script.profile n cases b s
    let filed := (run.progress.outbox.log? (entry.id.key plan.abi)).map Log.content
    ∃ params r, LinkParams.ofJson? entry.givenParams = some params ∧
      run.summary.results[i]? = some r ∧ r.id = entry.id ∧
      Connected params plan.timeouts.test (script.firstReply? params.address) r filed ∧
      (midway o plan script.profile n cases b s (i + 1)).bench.platform.requests =
        (midway o plan script.profile n cases b s i).bench.platform.requests ++
          [.connect params.address params.secure] ∧
      ∀ other : Script, other.profile.missing c.requires = [] →
        other.firstReply? params.address = script.firstReply? params.address →
        let run' := runSuite o plan other.profile n cases (benchAt start other) s
        (∃ r', run'.summary.results[i]? = some r' ∧ r'.undated = r.undated) ∧
          (run'.progress.outbox.log? (entry.id.key plan.abi)).map Log.content = filed := by
  intro b run filed
  have hgive : ∀ c ∈ cases, c.GivesBack := by
    intro c hmem
    obtain ⟨k, hk⟩ := List.mem_iff_getElem?.1 hmem
    obtain ⟨e, -, he⟩ := Suite.exists_entry_of_casesBehind hcases hk
    exact e.toCase_givesBack he
  have hids := (Suite.casesOf_spec hcases).2
  obtain ⟨e, he, hcase⟩ := Suite.exists_entry_of_casesBehind hcases hc
  cases hentry.symm.trans he
  obtain ⟨params, l, hparams, hl, rfl⟩ := entry.exists_link hkind hcase
  obtain ⟨haddress, hsecure⟩ := Link.request_of_ofParams hl
  obtain ⟨⟨hpos, hmax⟩, -⟩ := Check.Timeouts.validate_eq_ok_iff.1 hplan
  have hmtu : ∀ e ∈ script.firstReply? l.address, ∀ address encrypted mtu,
      e.event = .connected address encrypted mtu → mtu < 2 ^ 64 := by
    intro e he address encrypted mtu hevent
    obtain ⟨w, hw⟩ := Script.exists_of_ofJson? hscript (Script.mem_events_of_firstReply? he)
    rw [hevent] at hw
    exact (Device.Event.mtu_lt_of_ofJson? hw).trans (by decide)
  obtain ⟨t, hyields, hcomes⟩ := l.exists_tally (hmax.trans_lt (by decide)) hmtu
  obtain ⟨⟨now, hresult⟩, hfiled, hrequests⟩ := link_runSuite o plan n start s hgive hids hc
    hoffered hpos rfl hyields
  refine ⟨params, _, hparams, hresult, id_resultOf plan entry.id t _, ?_, ?_, ?_⟩
  · have hconnected := connected_of_comes hl hcomes entry.id now
    rw [← hfiled, haddress] at hconnected
    rw [haddress]
    exact hconnected
  · rw [hrequests, haddress, hsecure]
  · intro other hoffers hsame run'
    rw [← haddress] at hsame
    obtain ⟨⟨now', hresult'⟩, hfiled', -⟩ := link_runSuite o plan n start s hgive hids hc
      hoffers hpos hsame hyields
    refine ⟨⟨_, hresult', undated_resultOf plan entry.id t rfl⟩, hfiled'.trans hfiled.symm⟩

/-- A device that answers a connection twice at the same time. -/
def earbudScript : Script :=
  ⟨⟨"earbuds", "arm64", .ofList [.lowEnergy, .lowEnergySecure]⟩,
    [⟨.connect, none, none, [⟨40, .connected "AA:01" true 185⟩]⟩,
      ⟨.connect, none, some "aa:01", [⟨40, .disconnected "busy"⟩, ⟨90, .disconnected "gone"⟩]⟩]⟩

def earbudEntry : Suite.Entry :=
  ⟨⟨"Link", "earbuds", by decide, by decide⟩, .connect, .empty,
    .object [("address", .string "aa:01"), ("min_mtu", Json.ofNat 100)]⟩

def earbudLink : Link :=
  ⟨"aa:01", true, true, some 100⟩

theorem runSuite_connected_earbuds :
    let c := earbudLink.toCase earbudEntry.id .empty
    let plan : Plan := ⟨"cts", "arm64", ⟨50, 20⟩⟩
    let run := runSuite inMemory plan earbudScript.profile ⟨"suite", "batch", 0⟩ [c]
      (benchAt 0 earbudScript) .empty
    Script.ofJson? .json earbudScript.toJson = some earbudScript ∧
      Suite.casesOf [earbudEntry] = .ok [c] ∧ plan.timeouts.validate = .ok () ∧
      earbudEntry.kind = .connect ∧ earbudScript.profile.missing c.requires = [] ∧
      (∃ r, run.summary.results[0]? = some r ∧ r.status = .pass) ∧
      (run.progress.outbox.log? (earbudEntry.id.key plan.abi)).map Log.content =
        some (some (Link.latencyMetric 40), [("negotiated_mtu", Link.mtuMetric 185)]) := by
  intro c plan
  -- Under a name of its own the run would be evaluated when it is compared.
  dsimp only
  have hscript : Script.ofJson? .json earbudScript.toJson = some earbudScript := rfl
  have hcases : Suite.casesOf [earbudEntry] = .ok [c] := rfl
  obtain ⟨params, r, hparams, hresult, -, hconnected, -⟩ := runSuite_connected inMemory plan
    hscript ⟨"suite", "batch", 0⟩ 0 .empty hcases rfl (i := 0) rfl rfl rfl rfl
  cases hparams
  have hletters : List.Forall₂ Check.SameLetter ['A', 'A', ':', '0', '1']
      ['a', 'a', ':', '0', '1'] := by
    simp [Check.SameLetter]
  have hmeets : earbudLink.Meets "AA:01" true 185 :=
    ⟨hletters, fun _ => rfl, by simp [earbudLink]⟩
  have hok := (Link.accepts_iff (p := ⟨"aa:01", true, none, some 100⟩) (l := earbudLink) rfl
    "AA:01" true 185).2 hmeets
  refine ⟨hscript, hcases, rfl, rfl, rfl, ⟨r, hresult, ?_⟩, ?_⟩
  · exact hconnected.passed.2 ⟨⟨40, .connected "AA:01" true 185⟩, rfl, by decide, hok⟩
  · obtain ⟨address, encrypted, mtu, hevent, hfiled⟩ :=
      hconnected.recorded ⟨40, .connected "AA:01" true 185⟩ rfl (by decide) hok
    cases hevent
    exact hfiled

end Compliance.Run
